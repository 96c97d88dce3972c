import RamLog.Proofs.Command.Outcome
import RamLog.Proofs.Csv.FileColumn

/-!
# File names in the rows of a run

The name that a run writes into its rows is the last part of the path, decoded. Whether it can be
read back depends on that name alone (`run_nameKept_iff`), whatever reads the file: a quote in it ends
its field early (`run_quote_in_name`).
-/
namespace RamLog.Command

open Text

/-- What is printed when rows are asked for. -/
theorem respond_csv {arguments : List Bytes} {request : Request} {data : Bytes} {journal : Journal}
    {readFile : Bytes → Except FileFault Bytes} (shown : LogEntry → Bool)
    (accepted : read arguments = .run request) (csv : request.format = .csv)
    (readable : readFile request.file = .ok data)
    (scanned : (scan request.settings data).result = .ok journal) :
    (respond (read arguments) readFile shown .unlimited).exit = 0 ∧
      (respond (read arguments) readFile shown .unlimited).stdout =
        Utf8.encode (Csv.document journal request.fileName) := by
  rw [← Scan.scanFile_ok (idLength_lt_of_read accepted), ← readable] at scanned
  have done := perform_of_journal shown scanned
  have printed := request.flatten_print journal
  rw [csv] at printed
  rw [respond_eq_perform accepted, done]
  exact ⟨rfl, printed⟩

/-- The rows that a run prints give back the name of the file exactly when there are none, or no
quote stands in the name. The name is what stands behind the last slash of a path that can be read. -/
theorem run_nameKept_iff (arguments : List Bytes) (readFile : Bytes → Except FileFault Bytes)
    (shown : LogEntry → Bool) (request : Request) (accepted : read arguments = .run request)
    (csv : request.format = .csv) (data : Bytes) (journal : Journal)
    (readable : readFile request.file = .ok data)
    (scanned : (scan request.settings data).result = .ok journal) :
    let outcome := respond (read arguments) readFile shown .unlimited
    (∃ document, outcome.exit = 0 ∧ outcome.stdout = Utf8.encode document ∧
      (Csv.NameKept document request.fileName journal.records.length ↔
        journal.records = [] ∨ '"' ∉ request.fileName)) ∧
    (∀ name, Path.EndsIn request.file name → request.fileName = Utf8.lossy name) ∧
    (∀ (files : Files) (content : Bytes), files.read request.file = .ok content →
      ∃ name, Path.EndsIn request.file name) := by
  intro outcome
  obtain ⟨exit, printed⟩ := respond_csv shown accepted csv readable scanned
  exact ⟨⟨_, exit, printed, Csv.nameKept_document_iff journal _⟩,
    fun name => Request.fileName_eq, fun files content => Files.endsIn_of_read⟩

/-- One record in a file whose name has a comma and a line feed in it. -/
theorem run_nameKept_iff_comma :
    let name : Bytes := [0x61, 0x2C, 0x0A, 0x62]
    let arguments : List Bytes := ["--csv", "--record-len=5"].map (Utf8.encode ·.toList) ++ [name]
    let request : Request := { file := name, format := .csv, settings := { stride := 5 } }
    let data : Bytes := [0, 0, 0, 0, 0, 0, 0, 0, 1, 0x41]
    let files : Files := .ofPaths [] [(name, data)]
    read arguments = .run request ∧ files.read name = .ok data ∧
      (scan request.settings data).result =
        .ok { records := [⟨5, 1, [0x41]⟩], stride := 5, slots := 1 } ∧
      ∃ document, (run arguments files .warn .unlimited).stdout = Utf8.encode document ∧
        Csv.NameKept document "a,\nb".toList 1 := by
  intro name arguments request data files
  have accepted : read arguments = .run request := rfl
  have readable : files.read name = .ok data := rfl
  have found : Journal.ofDump request.settings data =
      { records := [⟨5, 1, [0x41]⟩], stride := 5, slots := 1 } := by decide
  have scanned := Scan.result_eq_ok request.settings data (by decide) nofun
  rw [found] at scanned
  obtain ⟨⟨document, -, printed, kept⟩, named, -⟩ := run_nameKept_iff arguments files.read
    Verbosity.warn.shows request accepted rfl data _ readable scanned
  have decoded : Utf8.lossy name = "a,\nb".toList := rfl
  rw [named name (by decide), decoded] at kept
  exact ⟨accepted, readable, scanned, document, printed, kept.mpr (.inr (by decide))⟩

/-- A quote in the name leaves text behind the field that it ends, and the rows are not well
formed. -/
theorem run_quote_in_name :
    let name : Bytes := [0x61, 0x22, 0x62]
    let arguments : List Bytes := ["--csv", "--record-len=5"].map (Utf8.encode ·.toList) ++ [name]
    let request : Request := { file := name, format := .csv, settings := { stride := 5 } }
    let data : Bytes := [0, 0, 0, 0, 0, 0, 0, 0, 1, 0x41]
    let files : Files := .ofPaths [] [(name, data)]
    let document := "\"Id\",\"Offset\",\"Msg\",\"File\"\n\"1\",\"5\",\"A\",\"a\"b\"\n".toList
    read arguments = .run request ∧ files.read name = .ok data ∧
      (run arguments files .warn .unlimited).exit = 0 ∧
      (run arguments files .warn .unlimited).stdout = Utf8.encode document ∧
      Csv.read? document = none := by
  intro name arguments request data files document
  have accepted : read arguments = .run request := rfl
  have readable : files.read name = .ok data := rfl
  have found : Journal.ofDump request.settings data =
      { records := [⟨5, 1, [0x41]⟩], stride := 5, slots := 1 } := by decide
  have scanned := Scan.result_eq_ok request.settings data (by decide) nofun
  rw [found] at scanned
  obtain ⟨exit, printed⟩ := respond_csv Verbosity.warn.shows accepted rfl readable scanned
  have decoded : request.fileName = "a\"b".toList := rfl
  rw [decoded] at printed
  exact ⟨accepted, readable, exit, printed, by decide⟩

end RamLog.Command
