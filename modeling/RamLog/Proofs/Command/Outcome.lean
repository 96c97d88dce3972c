import RamLog.Command.Run
import RamLog.Proofs.Command.Settings
import RamLog.Proofs.Command.Transcript
import RamLog.Proofs.Files.FileName
import RamLog.Proofs.Scan.Account

/-!
# What a run leaves behind

A run that a command line asks for does what a scan of its file does, if standard output takes
everything (`run_refines_scan`): it prints the journal, or it complains that the dump is truncated or
that the file cannot be read. That holds whatever reads the file and whichever entries of the log are
shown; only a read that is reported as a broken pipe is passed over. Standard error has nothing else
beside the log, but an entry of the log may go on for several lines (`rest_of_feed_in_path`).
-/
namespace RamLog.Command

open Text

theorem respond_eq_perform {arguments : List Bytes} {request : Request}
    (accepted : read arguments = .run request) (readFile : Bytes → Except FileFault Bytes)
    (shown : LogEntry → Bool) (stdout : Sink) :
    respond (read arguments) readFile shown stdout =
      perform request (readFile request.file) shown stdout := by
  rw [accepted]
  rfl

/-- Entries about events leave nothing, whichever of them are shown. -/
theorem Transcript.rest_append_events (events : List Event) (shown : LogEntry → Bool)
    (back : List Mark) :
    (ofMarks (((events.map LogEntry.ofEvent).filter shown).flatMap Mark.ofEntry ++ back)).rest =
      (ofMarks back).rest := by
  apply rest_append_entries
  intro e member
  obtain ⟨ev, _, rfl⟩ := List.mem_map.mp (List.mem_filter.mp member).1
  exact LogEntry.isLine_ofEvent ev

namespace Failure

variable (file : Bytes) {fault : Fault}

theorem report_of_loud (opening : String) (loud : fault.kind ≠ .brokenPipe)
    (opens : "Error: " ++ verdict fault.kind ++ ": " = opening) :
    report (some (ofFault file fault)) =
      (1, s!"{opening}{String.ofList (Utf8.lossy file)}: " ++ s!"{fault.message}\n") := by
  have kind : (ofFault file fault).kind ≠ .brokenPipe := loud
  rw [report, if_neg kind]
  simp only [ofFault, toString, ← opens, String.append_assoc]

theorem report_of_truncated (offset length stride : Nat) :
    report (some (ofFault file (.truncated offset length stride))) =
      (1, s!"Error: Malformed log: {String.ofList (Utf8.lossy file)}: " ++
        s!"Truncated record at offset {offset}: {length} of {stride} bytes\n") := by
  have loud : (Fault.truncated offset length stride).kind ≠ .brokenPipe := nofun
  have ending : " bytes" ++ "\n" = " bytes\n" := rfl
  rw [report_of_loud file "Error: Malformed log: " loud rfl]
  unfold Fault.message
  simp only [toString, ← ending, String.append_assoc]

theorem report_of_brokenPipe (pipe : fault.kind = .brokenPipe) :
    report (some (ofFault file fault)) = (0, "") :=
  if_pos pipe

end Failure

section Perform

variable {request : Request} {content : Except FileFault Bytes} (shown : LogEntry → Bool)

/-- The failure that ends the serving is what is reported. -/
theorem perform_reported (request : Request) (content : Except FileFault Bytes) (stdout : Sink) :
    ((perform request content shown stdout).exit, (perform request content shown stdout).message) =
      Failure.report (serve request content stdout).failure := rfl

theorem serve_of_fault {fault : Fault} (stdout : Sink)
    (failed : (scanFile request.settings content).result = .error fault) :
    serve request content stdout =
      { log := (scanFile request.settings content).events.map LogEntry.ofEvent
        failure := some (.ofFault request.file fault) } := by
  simp only [serve, failed]

theorem serve_of_journal {journal : Journal} (stdout : Sink)
    (scanned : (scanFile request.settings content).result = .ok journal) :
    serve request content stdout =
      { log := (scanFile request.settings content).events.map LogEntry.ofEvent ++
          [LogEntry.ofJournal request.file journal]
        stdout := (stdout.write (request.print journal)).written
        failure := (stdout.write (request.print journal)).fault.map .ofWriteFault } := by
  simp only [serve, scanned]

/-- A fault is reported, nothing is printed, and nothing but the report stands beside the log. -/
theorem perform_of_fault {fault : Fault} {exit : Nat} {message : String} (stdout : Sink)
    (failed : (scanFile request.settings content).result = .error fault)
    (reported : Failure.report (some (.ofFault request.file fault)) = (exit, message)) :
    (perform request content shown stdout).exit = exit ∧
      (perform request content shown stdout).stdout = [] ∧
      (perform request content shown stdout).transcript.rest = message.toList := by
  have outcome : perform request content shown stdout =
      { exit, message
        log := ((scanFile request.settings content).events.map LogEntry.ofEvent).filter shown } := by
    rw [perform, serve_of_fault stdout failed]
    simp only [reported]
  rw [outcome]
  refine ⟨rfl, rfl, ?_⟩
  exact (Transcript.rest_append_events _ _ _).trans (Transcript.rest_chars _)

/-- A journal is printed, and the program says nothing itself. -/
theorem perform_of_journal {journal : Journal}
    (scanned : (scanFile request.settings content).result = .ok journal) :
    perform request content shown .unlimited =
      { exit := 0, stdout := (request.print journal).flatten
        log := ((scanFile request.settings content).events.map LogEntry.ofEvent ++
          [LogEntry.ofJournal request.file journal]).filter shown } := by
  rw [perform, serve_of_journal .unlimited scanned]
  rfl

/-- The log and the message of a run whose scan succeeds, as they stand on standard error. -/
theorem rest_of_journal_message {journal : Journal} (stdout : Sink)
    (scanned : (scanFile request.settings content).result = .ok journal) :
    (perform request content shown stdout).transcript.rest =
      let message := (perform request content shown stdout).message.toList
      if shown (.ofJournal request.file journal) then
        (LogEntry.ofJournal request.file journal).leaves message
      else message := by
  have log : (perform request content shown stdout).log =
      ((scanFile request.settings content).events.map LogEntry.ofEvent).filter shown ++
        [LogEntry.ofJournal request.file journal].filter shown := by
    rw [perform, serve_of_journal stdout scanned, ← List.filter_append]
  rw [Outcome.transcript, Transcript.of, log, List.flatMap_append, List.append_assoc]
  refine (Transcript.rest_append_events _ _ _).trans ?_
  rw [List.filter_cons]
  split
  · have entry := Transcript.rest_entry_append (LogEntry.ofJournal request.file journal)
      (perform request content shown stdout).message.toList
    unfold Mark.ofEntry at entry
    simpa using entry
  · exact Transcript.rest_chars _

theorem rest_of_journal {journal : Journal}
    (scanned : (scanFile request.settings content).result = .ok journal) :
    (perform request content shown .unlimited).transcript.rest =
      if shown (.ofJournal request.file journal) then
        (LogEntry.ofJournal request.file journal).further
      else [] := by
  have silent := congrArg Outcome.message (perform_of_journal shown scanned)
  rw [rest_of_journal_message shown .unlimited scanned, silent, ← LogEntry.leaves_nil]
  rfl

end Perform

/-- The name in the rows is what stands behind the last slash of the path. -/
theorem Request.fileName_eq {request : Request} {name : Name}
    (ends : Path.EndsIn request.file name) : request.fileName = Utf8.lossy name := by
  rw [Request.fileName, ends.fileName?_eq]
  rfl

theorem Request.flatten_print (request : Request) (journal : Journal) :
    match request.format with
    | .details => (request.print journal).flatten = journal.details.flatten
    | .csv => (request.print journal).flatten =
        Utf8.encode (Csv.document journal request.fileName)
    | .verbatim => (request.print journal).flatten = journal.verbatim.flatten := by
  unfold Request.print
  cases request.format with
  | verbatim => rfl
  | details => rfl
  | csv => exact List.append_nil _

/-- What a run does is what a scan of its file finds, whatever reads the file and whichever entries
of the log are shown. A fault of the scan that reaches the user is a dump that ends inside a slot. A
file that cannot be read is complained of in the words of the report, unless the report is of a broken
pipe, which no working directory gives. The name in the rows is the last part of a path that can be
read. -/
theorem run_refines_scan (arguments : List Bytes) (readFile : Bytes → Except FileFault Bytes)
    (shown : LogEntry → Bool) (request : Request) (accepted : read arguments = .run request) :
    let outcome := respond (read arguments) readFile shown .unlimited
    (∀ data journal, readFile request.file = .ok data →
      (scan request.settings data).result = .ok journal →
      outcome.exit = 0 ∧ outcome.message = "" ∧
        outcome.transcript.rest =
          (if shown (.ofJournal request.file journal) then
            (LogEntry.ofJournal request.file journal).further else []) ∧
        ('\n' ∉ Utf8.lossy request.file → outcome.transcript.rest = []) ∧
        match request.format with
        | .details => outcome.stdout = journal.details.flatten
        | .csv => outcome.stdout = Utf8.encode (Csv.document journal request.fileName)
        | .verbatim => outcome.stdout = journal.verbatim.flatten) ∧
    (∀ data fault, readFile request.file = .ok data →
      (scan request.settings data).result = .error fault →
      request.settings.strict = true ∧
        ∃ rest, Dump.leftover? request.settings.stride data = some rest ∧
          fault = .truncated rest.offset rest.length request.settings.stride ∧
          outcome.exit = 1 ∧ outcome.stdout = [] ∧
          outcome.transcript.rest =
            (s!"Error: Malformed log: {String.ofList (Utf8.lossy request.file)}: " ++
              s!"Truncated record at offset {rest.offset}: {rest.length} of " ++
              s!"{request.settings.stride} bytes\n").toList) ∧
    (∀ cause, readFile request.file = .error cause →
      outcome.stdout = [] ∧ match cause.kind with
        | .other => outcome.exit = 1 ∧ outcome.transcript.rest =
            (s!"Error: File not found: {String.ofList (Utf8.lossy request.file)}: " ++
              s!"{cause.message}\n").toList
        | .malformed => outcome.exit = 1 ∧ outcome.transcript.rest =
            (s!"Error: Malformed log: {String.ofList (Utf8.lossy request.file)}: " ++
              s!"{cause.message}\n").toList
        | .brokenPipe => outcome.exit = 0 ∧ outcome.transcript.rest = []) ∧
    (∀ files : Files,
      (∀ data, files.read request.file = .ok data → ∃ name,
        Path.EndsIn request.file name ∧ request.fileName = Utf8.lossy name) ∧
      ∀ cause, files.read request.file = .error cause → cause.kind = .other) := by
  have wide := idLength_lt_of_read accepted
  intro outcome
  have served : outcome = perform request (readFile request.file) shown .unlimited :=
    respond_eq_perform accepted readFile shown .unlimited
  refine ⟨?_, ?_, ?_, ?_⟩
  · intro data journal readable scanned
    rw [readable] at served
    rw [← Scan.scanFile_ok wide] at scanned
    have rest := rest_of_journal shown scanned
    have done := perform_of_journal shown scanned
    rw [← served] at rest done
    refine ⟨congrArg Outcome.exit done, congrArg Outcome.message done, rest, ?_, ?_⟩
    · intro line
      rw [rest, LogEntry.further_ofJournal _ _ line, ite_self]
    · have printed : outcome.stdout = (request.print journal).flatten :=
        congrArg Outcome.stdout done
      rw [printed]
      exact request.flatten_print journal
  · intro data fault readable failed
    obtain ⟨strict, rest, found, truncated⟩ := Scan.eq_truncated_of_result wide failed
    rw [readable] at served
    rw [← Scan.scanFile_ok wide, truncated] at failed
    obtain ⟨exit, silent, complaint⟩ := perform_of_fault shown .unlimited failed
      (Failure.report_of_truncated request.file rest.offset rest.length request.settings.stride)
    rw [← served] at exit silent complaint
    refine ⟨strict, rest, found, truncated, exit, silent, ?_⟩
    rw [complaint]
    simp only [toString, String.append_assoc]
  · intro cause unreadable
    have failed : (scanFile request.settings (readFile request.file)).result =
        .error (.unreadable cause) := by
      rw [unreadable, Scan.scanFile_error wide]
    have reported : ∀ {exit message},
        Failure.report (some (.ofFault request.file (.unreadable cause))) = (exit, message) →
        outcome.exit = exit ∧ outcome.stdout = [] ∧
          outcome.transcript.rest = message.toList := by
      rw [served]
      exact perform_of_fault shown .unlimited failed
    have kind : (Fault.unreadable cause).kind = cause.kind := rfl
    cases found : cause.kind with
    | other =>
      rw [found] at kind
      obtain ⟨exit, silent, complaint⟩ := reported (Failure.report_of_loud request.file
        "Error: File not found: " (by rw [kind]; nofun) (by rw [kind]; rfl))
      exact ⟨silent, exit, complaint⟩
    | malformed =>
      rw [found] at kind
      obtain ⟨exit, silent, complaint⟩ := reported (Failure.report_of_loud request.file
        "Error: Malformed log: " (by rw [kind]; nofun) (by rw [kind]; rfl))
      exact ⟨silent, exit, complaint⟩
    | brokenPipe =>
      rw [found] at kind
      obtain ⟨exit, silent, complaint⟩ := reported (Failure.report_of_brokenPipe request.file kind)
      exact ⟨silent, exit, complaint⟩
  · intro files
    refine ⟨fun data readable => ?_, fun cause => Files.kind_of_read⟩
    obtain ⟨name, ends⟩ := Files.endsIn_of_read readable
    exact ⟨name, ends, Request.fileName_eq ends⟩

/-- A strict run over slots of eight octets: a dump that ends on a slot, one that is three octets
longer, none at all, and one that may not be read. -/
theorem run_refines_scan_strict :
    let arguments := ["--strict", "--record-len=8", "f"].map fun s => Utf8.encode s.toList
    let request : Request := { file := [0x66], settings := { stride := 8, strict := true } }
    let slots : Bytes := List.replicate 8 0 ++ [0, 0, 0, 1, 0x68, 0x69, 0, 0]
    let whole : Files := .ofPaths [] [([0x66], slots)]
    let cut : Files := .ofPaths [] [([0x66], slots ++ [0, 0, 0])]
    read arguments = .run request ∧
      whole.read request.file = .ok slots ∧
      (run arguments whole .debug .unlimited).exit = 0 ∧
      (run arguments whole .debug .unlimited).transcript.rest = [] ∧
      cut.read request.file = .ok (slots ++ [0, 0, 0]) ∧
      (run arguments cut .debug .unlimited).exit = 1 ∧
      (run arguments cut .debug .unlimited).stdout = [] ∧
      (Files.ofPaths [] []).read request.file = .error .noEntry ∧
      (run arguments (.ofPaths [] []) .debug .unlimited).transcript.rest =
        "Error: File not found: f: No such file or directory (os error 2)\n".toList ∧
      (respond (read arguments) (fun _ => .error .denied) Verbosity.debug.shows
          .unlimited).transcript.rest =
        "Error: File not found: f: Permission denied (os error 13)\n".toList := by
  intro arguments request slots whole cut
  have accepted : read arguments = .run request := rfl
  have fits : whole.read request.file = .ok slots := rfl
  have tooLong : cut.read request.file = .ok (slots ++ [0, 0, 0]) := rfl
  have missing : (Files.ofPaths [] []).read request.file = .error .noEntry := rfl
  have journal : (scan request.settings slots).result = .ok (.ofDump request.settings slots) :=
    Scan.result_eq_ok _ _ (by decide) fun _ => by decide
  have fault : (scan request.settings (slots ++ [0, 0, 0])).result = .error (.truncated 16 3 8) := by
    rw [Scan.scan_eq_truncated _ _ ⟨16, 3⟩ (by decide) rfl (by decide)]
  obtain ⟨exit, -, -, rest, -⟩ :=
    (run_refines_scan arguments whole.read Verbosity.debug.shows request accepted).1 slots _ fits journal
  obtain ⟨-, _, -, -, failed, silent, -⟩ :=
    (run_refines_scan arguments cut.read Verbosity.debug.shows request accepted).2.1 _ _ tooLong
      fault
  obtain ⟨-, -, complaint⟩ := (run_refines_scan arguments (Files.ofPaths [] []).read
    Verbosity.debug.shows request accepted).2.2.1 _ missing
  obtain ⟨-, -, refusal⟩ := (run_refines_scan arguments (fun _ => .error .denied)
    Verbosity.debug.shows request accepted).2.2.1 .denied rfl
  exact ⟨accepted, fits, exit, rest (by decide), tooLong, failed, silent, missing, complaint,
    refusal⟩

/-- A line feed in the path sends the entry about the journal over two lines, so that its second
line is left beside the log. -/
theorem rest_of_feed_in_path :
    let request : Request := { file := [0x0A] }
    let files : Files := .ofPaths [] [([0x0A], [])]
    read [[0x0A]] = .run request ∧
      files.read request.file = .ok [] ∧
      (scan request.settings []).result = .ok {} ∧
      (run [[0x0A]] files .info .unlimited).exit = 0 ∧
      (run [[0x0A]] files .info .unlimited).transcript.rest =
        "    : 0 records in 0 slots\n".toList ∧
      (run [[0x0A]] files .info .unlimited).transcript.rest ≠ [] := by
  intro request files
  have found : Journal.ofDump request.settings [] = {} := by decide
  have scanned : (scan request.settings []).result = .ok {} := by
    rw [Scan.result_eq_ok request.settings [] (by decide) nofun, found]
  exact ⟨by decide, rfl, scanned, by decide, by decide, by decide⟩

end RamLog.Command
