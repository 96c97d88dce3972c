import RamLog.Proofs.Command.Outcome
import RamLog.Proofs.Listing.Capacity

/-!
# Standard output that cannot be written

A sink without room fails at the first octet, so it fails exactly if there is something to print
(`Sink.write_limited_zero`), and of what is printed only the verbatim listing of a dump without
messages is empty (`Request.flatten_print_eq_nil_iff`). A run whose scan fails never writes to
standard output. `run_unwritable` puts together what a closed pipe and a full device make of every
run.
-/
namespace RamLog

/-- A sink without room takes nothing, and fails if there is anything to take. -/
theorem Sink.write_limited_zero (fault : WriteFault) (pieces : List Bytes) :
    (Sink.limited 0 fault).write pieces =
      ⟨[], if pieces.flatten = [] then none else some fault⟩ := by
  rw [write, writeWithin_eq]
  by_cases nothing : pieces.flatten = []
  · rw [if_pos nothing, nothing]
    rfl
  · have short : ¬ pieces.flatten.length ≤ 0 := by
      rwa [Nat.le_zero, List.length_eq_zero_iff]
    rw [if_neg nothing, if_neg short]
    rfl

theorem Journal.flatten_verbatim_eq_nil_iff (journal : Journal) :
    journal.verbatim.flatten = [] ↔ journal.records = [] := by
  cases found : journal.records with
  | nil => simp [Journal.verbatim, found]
  | cons r rest => simp [Journal.verbatim, found, Record.verbatim]

namespace Command

open Text

/-- Of what is printed, only a verbatim listing can be empty. -/
theorem Request.flatten_print_eq_nil_iff (request : Request) (journal : Journal) :
    (request.print journal).flatten = [] ↔ request.format = .verbatim ∧ journal.records = [] := by
  unfold Request.print
  cases request.format with
  | verbatim =>
    rw [Journal.flatten_verbatim_eq_nil_iff]
    exact (and_iff_right rfl).symm
  | details =>
    have rule : journal.details.flatten ≠ [] := by
      rw [Journal.details, Journal.detailLines]
      exact List.append_ne_nil_of_left_ne_nil (Utf8.encode_cons_ne_nil _ _) _
    exact ⟨fun nothing => absurd nothing rule, fun h => by cases h.1⟩
  | csv =>
    have columns : [Utf8.encode (Csv.document journal request.fileName)].flatten ≠ [] := by
      rw [List.flatten_singleton]
      exact Utf8.encode_cons_ne_nil _ _
    exact ⟨fun nothing => absurd nothing columns, fun h => by cases h.1⟩

section Perform

variable {request : Request} {content : Except FileFault Bytes} (shown : LogEntry → Bool)

/-- A run whose scan fails is the same whatever standard output is. -/
theorem perform_eq_of_fault {fault : Fault} (stdout : Sink)
    (failed : (scanFile request.settings content).result = .error fault) :
    perform request content shown stdout = perform request content shown .unlimited := by
  rw [perform, perform, serve_of_fault stdout failed, serve_of_fault .unlimited failed]

/-- What printing to a sink without room makes of a run whose scan succeeds. -/
theorem perform_limited_zero {journal : Journal} (fault : WriteFault)
    (scanned : (scanFile request.settings content).result = .ok journal) :
    ((perform request content shown (.limited 0 fault)).exit,
        (perform request content shown (.limited 0 fault)).message) =
      Failure.report (if (request.print journal).flatten = [] then none
        else some (.ofWriteFault fault)) := by
  rw [perform_reported, serve_of_journal (.limited 0 fault) scanned, Sink.write_limited_zero]
  dsimp only
  split <;> rfl

theorem perform_closedPipe {journal : Journal}
    (scanned : (scanFile request.settings content).result = .ok journal) :
    (perform request content shown .closedPipe).exit = 0 ∧
      (perform request content shown .closedPipe).message = "" := by
  rw [← Prod.mk.injEq, Sink.closedPipe, perform_limited_zero shown .brokenPipe scanned]
  split <;> rfl

theorem perform_fullDevice_of_nil {journal : Journal}
    (scanned : (scanFile request.settings content).result = .ok journal)
    (nothing : (request.print journal).flatten = []) :
    (perform request content shown .fullDevice).exit = 0 ∧
      (perform request content shown .fullDevice).message = "" := by
  rw [← Prod.mk.injEq, Sink.fullDevice, perform_limited_zero shown .noSpace scanned, if_pos nothing]
  rfl

theorem perform_fullDevice_of_ne_nil {journal : Journal}
    (scanned : (scanFile request.settings content).result = .ok journal)
    (something : (request.print journal).flatten ≠ []) :
    (perform request content shown .fullDevice).exit = 1 ∧
      (perform request content shown .fullDevice).message =
        "Error: No space left on device (os error 28)\n" := by
  rw [← Prod.mk.injEq, Sink.fullDevice, perform_limited_zero shown .noSpace scanned,
    if_neg something]
  rfl

end Perform

/-- A run whose scan fails does the same whatever standard output is. Where the scan succeeds, a
closed pipe passes in silence, and a full device is reported exactly if there is something to print;
there is, unless the verbatim listing of a dump without messages is asked for. Standard error without
the log is what the entry about the journal, if it is shown, and the message leave. -/
theorem run_unwritable (arguments : List Bytes) (readFile : Bytes → Except FileFault Bytes)
    (shown : LogEntry → Bool) (request : Request) (accepted : read arguments = .run request) :
    let outcome := respond (read arguments) readFile shown
    (∀ cause, readFile request.file = .error cause →
      ∀ stdout, outcome stdout = outcome .unlimited) ∧
    (∀ data fault, readFile request.file = .ok data →
      (scan request.settings data).result = .error fault →
      ∀ stdout, outcome stdout = outcome .unlimited) ∧
    (∀ data journal, readFile request.file = .ok data →
      (scan request.settings data).result = .ok journal →
      let printed := (outcome .unlimited).stdout
      let complaint := "Error: No space left on device (os error 28)\n"
      let beside (message : String) : List Char :=
        if shown (.ofJournal request.file journal) then
          (LogEntry.ofJournal request.file journal).leaves message.toList
        else message.toList
      ((outcome .closedPipe).exit = 0 ∧ (outcome .closedPipe).message = "" ∧
        (outcome .closedPipe).transcript.rest = beside "") ∧
      (printed ≠ [] ↔ (outcome .fullDevice).exit = 1 ∧ (outcome .fullDevice).message = complaint ∧
        (outcome .fullDevice).transcript.rest = beside complaint) ∧
      (printed = [] ↔ (outcome .fullDevice).exit = 0 ∧ (outcome .fullDevice).message = "" ∧
        (outcome .fullDevice).transcript.rest = beside "") ∧
      printed = (request.print journal).flatten ∧
      (printed = [] ↔ request.format = .verbatim ∧
        ∀ w ∈ Dump.windows request.settings.stride data, w.isEmpty = true) ∧
      ('\n' ∉ Utf8.lossy request.file → beside "" = []) ∧
      ((∀ c ∈ Utf8.lossy request.file, c ≠ '\n' ∧ Plain.Mode.outside.keeps c = true) →
        beside complaint = complaint.toList)) := by
  have wide := idLength_lt_of_read accepted
  intro outcome
  have served : ∀ stdout, outcome stdout =
      perform request (readFile request.file) shown stdout :=
    respond_eq_perform accepted readFile shown
  refine ⟨?_, ?_, ?_⟩
  · intro cause unreadable stdout
    have failed : (scanFile request.settings (readFile request.file)).result =
        .error (.unreadable cause) := by
      rw [unreadable, Scan.scanFile_error wide]
    rw [served, served, perform_eq_of_fault shown stdout failed]
  · intro data fault readable failed stdout
    rw [← Scan.scanFile_ok wide, ← readable] at failed
    rw [served, served, perform_eq_of_fault shown stdout failed]
  · intro data journal readable scanned printed complaint beside
    obtain ⟨-, found⟩ := Scan.eq_ofDump_of_result scanned
    rw [← Scan.scanFile_ok wide, ← readable] at scanned
    have rest : ∀ stdout, (outcome stdout).transcript.rest = beside (outcome stdout).message := by
      intro stdout
      rw [served]
      exact rest_of_journal_message shown stdout scanned
    have all_printed : printed = (request.print journal).flatten := by
      have done := perform_of_journal shown scanned
      rw [← served] at done
      exact congrArg Outcome.stdout done
    have closed := perform_closedPipe shown scanned
    rw [← served] at closed
    have of_something : printed ≠ [] →
        (outcome .fullDevice).exit = 1 ∧ (outcome .fullDevice).message = complaint := by
      rw [all_printed, served]
      exact perform_fullDevice_of_ne_nil shown scanned
    have of_nothing : printed = [] →
        (outcome .fullDevice).exit = 0 ∧ (outcome .fullDevice).message = "" := by
      rw [all_printed, served]
      exact perform_fullDevice_of_nil shown scanned
    refine ⟨⟨closed.1, closed.2, ?_⟩, ⟨?_, ?_⟩, ⟨?_, ?_⟩, all_printed, ?_, ?_, ?_⟩
    · rw [rest, closed.2]
    · intro something
      obtain ⟨exit, message⟩ := of_something something
      exact ⟨exit, message, by rw [rest, message]⟩
    · rintro ⟨exit, -, -⟩ nothing
      rw [(of_nothing nothing).1] at exit
      cases exit
    · intro nothing
      obtain ⟨exit, message⟩ := of_nothing nothing
      exact ⟨exit, message, by rw [rest, message]⟩
    · rintro ⟨exit, -, -⟩
      by_contra something
      rw [(of_something something).1] at exit
      cases exit
    · rw [all_printed, Request.flatten_print_eq_nil_iff, found, Scan.records_ofDump_eq_nil_iff]
    · intro line
      have nothing : (LogEntry.ofJournal request.file journal).leaves [] = [] := by
        rw [LogEntry.leaves_nil, LogEntry.further_ofJournal _ _ line]
      show (if shown (.ofJournal request.file journal) then _ else _) = _
      split
      · exact nothing
      · rfl
    · intro plain
      have single := LogEntry.isLine_ofJournal journal plain
      show (if shown (.ofJournal request.file journal) then _ else _) = _
      split
      · exact LogEntry.leaves_of_isLine single _
      · rfl

/-- A strict run over slots of eight octets: without a file, over a dump that is too long, over one
with a message, and over one without. -/
theorem run_unwritable_strict :
    let arguments := ["--strict", "--record-len=8", "f"].map fun s => Utf8.encode s.toList
    let request : Request := { file := [0x66], settings := { stride := 8, strict := true } }
    let blank : Bytes := List.replicate 16 0
    let slots : Bytes := List.replicate 8 0 ++ [0, 0, 0, 1, 0x68, 0x69, 0, 0]
    let missing : Files := .ofPaths [] []
    let cut : Files := .ofPaths [] [([0x66], slots ++ [0, 0, 0])]
    let whole : Files := .ofPaths [] [([0x66], slots)]
    let empty : Files := .ofPaths [] [([0x66], blank)]
    read arguments = .run request ∧
      run arguments missing .debug .closedPipe = run arguments missing .debug .unlimited ∧
      run arguments cut .debug .fullDevice = run arguments cut .debug .unlimited ∧
      (run arguments whole .debug .closedPipe).exit = 0 ∧
      (run arguments whole .debug .fullDevice).exit = 1 ∧
      (run arguments whole .debug .fullDevice).transcript.rest =
        "Error: No space left on device (os error 28)\n".toList ∧
      (run arguments empty .debug .fullDevice).exit = 0 := by
  intro arguments request blank slots missing cut whole empty
  have accepted : read arguments = .run request := rfl
  have absent : missing.read request.file = .error .noEntry := rfl
  have tooLong : cut.read request.file = .ok (slots ++ [0, 0, 0]) := rfl
  have fits : whole.read request.file = .ok slots := rfl
  have zeros : empty.read request.file = .ok blank := rfl
  have fault : (scan request.settings (slots ++ [0, 0, 0])).result = .error (.truncated 16 3 8) := by
    rw [Scan.scan_eq_truncated _ _ ⟨16, 3⟩ (by decide) rfl (by decide)]
  have journal : (scan request.settings slots).result = .ok (.ofDump request.settings slots) :=
    Scan.result_eq_ok _ _ (by decide) fun _ => by decide
  have nothing : (scan request.settings blank).result = .ok (.ofDump request.settings blank) :=
    Scan.result_eq_ok _ _ (by decide) fun _ => by decide
  let debug : LogEntry → Bool := Verbosity.debug.shows
  obtain ⟨unreadable, -, -⟩ := run_unwritable arguments missing.read debug request accepted
  obtain ⟨-, failed, -⟩ := run_unwritable arguments cut.read debug request accepted
  obtain ⟨⟨closed, -, -⟩, full, -, -, silent, -, plain⟩ :=
    (run_unwritable arguments whole.read debug request accepted).2.2 slots _ fits journal
  obtain ⟨-, -, quiet, -, silent', -, -⟩ :=
    (run_unwritable arguments empty.read debug request accepted).2.2 blank _ zeros nothing
  have message : ¬ (request.format = .verbatim ∧
      ∀ w ∈ Dump.windows request.settings.stride slots, w.isEmpty = true) := by decide
  have path : ∀ c ∈ Utf8.lossy request.file, c ≠ '\n' ∧ Plain.Mode.outside.keeps c = true := by
    have read : Utf8.lossy request.file = ['f'] := by decide
    rw [read, List.forall_mem_singleton]
    exact ⟨by decide, by decide⟩
  obtain ⟨exit, -, rest⟩ := full.mp fun none => message (silent.mp none)
  rw [plain path] at rest
  exact ⟨accepted, unreadable _ absent _, failed _ _ tooLong fault _, closed, exit, rest,
    (quiet.mp (silent'.mpr (by decide))).1⟩

/-- With a line feed in the path, the second line of the entry about the journal is left although
nobody reads standard output. With a control string in the path that nothing ends, the line of the
entry takes in the report on a full device. -/
theorem rest_of_unwritable_controls :
    let feed : Request := { file := [0x0A], format := .csv }
    let control : Request := { file := [0x1B, 0x5F], format := .csv }
    let files : Files := .ofPaths [] [([0x0A], []), ([0x1B, 0x5F], [])]
    let arguments (request : Request) := [Utf8.encode "--csv".toList, request.file]
    let closed := run (arguments feed) files .info .closedPipe
    let full := run (arguments control) files .info .fullDevice
    read (arguments feed) = .run feed ∧ read (arguments control) = .run control ∧
      files.read feed.file = .ok [] ∧ files.read control.file = .ok [] ∧
      (scan feed.settings []).result = .ok {} ∧
      closed.exit = 0 ∧ closed.transcript.rest = "    : 0 records in 0 slots\n".toList ∧
      closed.transcript.rest ≠ [] ∧
      full.exit = 1 ∧ full.transcript.rest = [] ∧
      full.transcript.rest ≠ "Error: No space left on device (os error 28)\n".toList := by
  intro feed control files arguments closed full
  have found : Journal.ofDump feed.settings [] = {} := by decide
  have scanned : (scan feed.settings []).result = .ok {} := by
    rw [Scan.result_eq_ok feed.settings [] (by decide) nofun, found]
  exact ⟨by decide, by decide, rfl, rfl, scanned, by decide, by decide, by decide, by decide, by decide,
    by decide⟩

end Command

end RamLog
