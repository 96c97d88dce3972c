import RamLog.Proofs.Csv.RoundTrip

/-!
# The column of file names

The name of a file is written between quotes as it is, so a quote in it is taken for the end of the
field. `nameKept_document_iff` says which names come through: those without a quote, and any name
while there are no records. A field that was read came from exactly one text between quotes
(`exists_of_readAll_quoted`), and a name that holds a quote does not begin the way its own text
between quotes would (`doubleQuotes_append_ne`).
-/
namespace RamLog.Csv

open Text Reader

namespace Reader.State

/-- The rows and the fields that a state holds begin what is read in the end. -/
structure Begins (s : State) (rows : List Row) : Prop where
  whole : s.rows <+: rows
  row : s.fields ≠ [] → ∃ row, rows[s.rows.length]? = some row ∧ s.fields <+: row

theorem Begins.of_endField {s : State} {rows : List Row} (begins : s.endField.Begins rows) :
    s.Begins rows where
  whole := begins.whole
  row := by
    intro _
    obtain ⟨row, found, start⟩ := begins.row (by simp [endField])
    exact ⟨row, found, (List.prefix_append _ _).trans start⟩

/-- A row that has ended stands where it was begun. -/
theorem getElem?_of_endRow {s : State} {rows : List Row} (start : s.endRow.rows <+: rows) :
    rows[s.rows.length]? = some (s.fields ++ [s.field]) := by
  obtain ⟨rest, rfl⟩ := start
  simp [endRow, endField]

theorem Begins.of_endRow {s : State} {rows : List Row} (start : s.endRow.rows <+: rows) :
    s.Begins rows where
  whole := (List.prefix_append _ _).trans start
  row := fun _ => ⟨_, getElem?_of_endRow start, List.prefix_append _ _⟩

theorem Begins.of_step {s after : State} {c : Char} {rows : List Row}
    (stepped : s.step c = some after) (begins : after.Begins rows) : s.Begins rows := by
  -- Every step ends a field, ends a row, or changes neither the rows nor the fields.
  have cases : after = s.endField ∨ after = s.endRow ∨
      after.rows = s.rows ∧ after.fields = s.fields := by
    unfold step at stepped
    split at stepped <;> (repeat' split at stepped) <;> cases stepped <;> simp [add]
  rcases cases with rfl | rfl | ⟨sameRows, sameFields⟩
  · exact begins.of_endField
  · exact .of_endRow begins.whole
  · exact ⟨sameRows ▸ begins.whole, sameRows ▸ sameFields ▸ begins.row⟩

theorem Begins.of_finish {s : State} {rows : List Row} (finished : s.finish = some rows) :
    s.Begins rows := by
  have ended : ∀ {t : State}, t.Begins t.endRow.rows := Begins.of_endRow (List.prefix_refl _)
  unfold finish at finished
  split at finished
  · cases finished
  · cases finished
    split
    next none => exact ⟨List.prefix_refl _, fun some => absurd none some⟩
    · exact ended
  · cases finished
    exact ended
  · cases finished
    exact ended

/-- Reading on keeps the rows and the fields that were read. -/
theorem Begins.of_readAll {s : State} {text : List Char} {rows : List Row}
    (read : s.readAll text = some rows) : s.Begins rows := by
  induction text generalizing s with
  | nil => exact .of_finish read
  | cons c text ih =>
    obtain ⟨after, stepped, read⟩ := Option.bind_eq_some_iff.mp read
    exact (ih read).of_step stepped

end Reader.State

/-- Behind a quote that no other quote follows, the field is part of its row as it is. -/
theorem exists_row_of_closing {rows result : List Row} {fields : Row} {value tail : List Char}
    (read : State.readAll ⟨rows, fields, value, .closing⟩ tail = some result)
    (closed : tail.head? ≠ some '"') :
    ∃ row, result[rows.length]? = some row ∧ fields ++ [value] <+: row := by
  cases tail with
  | nil =>
    cases read
    exact ⟨_, State.getElem?_of_endRow (List.prefix_refl _), List.prefix_refl _⟩
  | cons c tail =>
    obtain ⟨after, stepped, read⟩ := Option.bind_eq_some_iff.mp read
    have begins := State.Begins.of_readAll read
    have noQuote : c ≠ '"' := fun quote => closed (by rw [quote]; rfl)
    simp only [State.step, if_neg noQuote] at stepped
    split at stepped
    · cases stepped
      exact begins.row (by simp [State.endField])
    · split at stepped
      · cases stepped
        exact ⟨_, State.getElem?_of_endRow begins.whole, List.prefix_refl _⟩
      · cases stepped

/-- Reading between quotes, or behind a quote, goes on to a quote that closes the field; what was
read up to it is a text with its quotes doubled. -/
theorem exists_of_readAll (rows : List Row) (fields : Row) (result : List Row) (text : List Char) :
    ∀ begun,
      (State.readAll ⟨rows, fields, begun, .quoted⟩ text = some result →
        ∃ value tail, text = doubleQuotes value ++ '"' :: tail ∧ tail.head? ≠ some '"' ∧
          State.readAll ⟨rows, fields, begun ++ value, .closing⟩ tail = some result) ∧
      (State.readAll ⟨rows, fields, begun, .closing⟩ text = some result →
        ∃ value tail, '"' :: text = doubleQuotes value ++ '"' :: tail ∧ tail.head? ≠ some '"' ∧
          State.readAll ⟨rows, fields, begun ++ value, .closing⟩ tail = some result) := by
  induction text with
  | nil =>
    intro begun
    constructor
    · intro read
      cases read
    · intro read
      exact ⟨[], [], rfl, by simp, by rwa [List.append_nil]⟩
  | cons c text ih =>
    intro begun
    by_cases quote : c = '"'
    · subst c
      constructor
      · exact (ih begun).2
      · intro read
        obtain ⟨value, tail, split, closed, read⟩ := (ih (begun ++ ['"'])).1 read
        refine ⟨'"' :: value, tail, ?_, closed, by simpa using read⟩
        rw [split]
        rfl
    · constructor
      · intro read
        have added : State.step ⟨rows, fields, begun, .quoted⟩ c =
            some ⟨rows, fields, begun ++ [c], .quoted⟩ := if_neg quote
        rw [State.readAll, added] at read
        obtain ⟨value, tail, split, closed, read⟩ := (ih (begun ++ [c])).1 read
        refine ⟨c :: value, tail, ?_, closed, by simpa using read⟩
        rw [split, doubleQuotes, doubleQuotes, List.flatMap_cons, if_neg quote]
        rfl
      · intro read
        exact ⟨[], c :: text, rfl, by simpa using quote, by rwa [List.append_nil]⟩

/-- Quotes that were doubled stay ahead of the same quotes written once. -/
theorem replicate_append_doubleQuotes_ne (tail more : List Char) (name : List Char) :
    ∀ ahead, List.replicate (ahead + 1) '"' ++ (doubleQuotes name ++ '"' :: tail) ≠
      name ++ '"' :: '\n' :: more := by
  induction name with
  | nil =>
    intro ahead same
    cases ahead <;> simp [List.replicate_succ, doubleQuotes] at same
  | cons c name ih =>
    intro ahead same
    rw [List.replicate_succ, List.cons_append, List.cons_append, List.cons.injEq] at same
    obtain ⟨rfl, same⟩ := same
    refine ih (ahead + 1) (Eq.trans ?_ same)
    have doubled : doubleQuotes ('"' :: name) = '"' :: '"' :: doubleQuotes name := rfl
    rw [doubled, List.replicate_succ', List.replicate_succ']
    simp

/-- A name with a quote in it, written as it is, is not that name with its quotes doubled. -/
theorem doubleQuotes_append_ne {name : List Char} (quote : '"' ∈ name) (tail more : List Char) :
    doubleQuotes name ++ '"' :: tail ≠ name ++ '"' :: '\n' :: more := by
  induction name with
  | nil => simp at quote
  | cons c name ih =>
    by_cases first : c = '"'
    · subst c
      intro same
      exact replicate_append_doubleQuotes_ne tail more name 0 (List.cons.inj same).2
    · have further : '"' ∈ name := by simpa [Ne.symm first] using quote
      intro same
      rw [doubleQuotes, List.flatMap_cons, if_neg first] at same
      exact ih further (List.cons.inj same).2

def recordRows (fileName : List Char) (records : List Record) : List Char :=
  records.flatMap fun r => row (insides fileName r)

theorem recordRows_cons (fileName : List Char) (r : Record) (records : List Record) :
    recordRows fileName (r :: records) =
      line [Decimal.digits r.id.toNat, Decimal.digits r.offset, message r] ++
        ',' :: '"' :: (fileName ++ '"' :: '\n' :: recordRows fileName records) := by
  have first : row (insides fileName r) =
      line [Decimal.digits r.id.toNat, Decimal.digits r.offset, message r] ++
        ',' :: '"' :: (fileName ++ ['"', '\n']) := by
    simp [row, insides, line, field, doubleQuotes_digits]
  rw [recordRows, List.flatMap_cons, first, ← recordRows]
  simp

/-- The reader comes to the name in the first record with all that stands in front of it read. -/
theorem read?_document_cons {journal : Journal} {r : Record} {records : List Record}
    (found : journal.records = r :: records) (fileName : List Char) :
    read? (document journal fileName) =
      State.readAll ⟨[columns], [Decimal.digits r.id.toNat, Decimal.digits r.offset, message r], [],
        .quoted⟩ (fileName ++ '"' :: '\n' :: recordRows fileName records) := by
  have parts : document journal fileName =
      line columns ++ '\n' :: recordRows fileName (r :: records) := by
    rw [document, row_columns, found, List.append_assoc]
    rfl
  have title := readAll_line [] [] "Id".toList ["Offset".toList, "Msg".toList, "File".toList]
    ('\n' :: recordRows fileName (r :: records))
  have front := readAll_line [columns] [] (Decimal.digits r.id.toNat)
    [Decimal.digits r.offset, message r]
    (',' :: '"' :: (fileName ++ '"' :: '\n' :: recordRows fileName records))
  rw [read?, parts]
  refine title.trans ?_
  show State.readAll ⟨[columns], [], [], .start⟩ (recordRows fileName (r :: records)) = _
  rw [recordRows_cons]
  exact front

/-- What a reader of the file column relies on: the document is well formed, it has a row for every
record, every row has four fields, and the last field of a record's row is the name of the file. -/
def NameKept (document fileName : List Char) (records : Nat) : Prop :=
  ∃ title rows, read? document = some (title :: rows) ∧ rows.length = records ∧
    (∀ row ∈ title :: rows, row.length = 4) ∧ ∀ row ∈ rows, row[3]? = some fileName

/-- A quote in the name of the file ends its field early, or never. -/
theorem not_nameKept_of_quote {journal : Journal} {fileName : List Char}
    (filled : journal.records ≠ []) (quote : '"' ∈ fileName) (records : Nat) :
    ¬ NameKept (document journal fileName) fileName records := by
  rintro ⟨title, rows, read, -, -, names⟩
  obtain ⟨r, others, found⟩ := List.exists_cons_of_ne_nil filled
  rw [read?_document_cons found] at read
  obtain ⟨value, tail, split, closed, read⟩ := (exists_of_readAll _ _ _ _ _).1 read
  obtain ⟨row, second, start⟩ := exists_row_of_closing read closed
  have member : row ∈ rows := List.mem_of_getElem? (i := 0) second
  have fourth : row[3]? = some value := by
    obtain ⟨rest, rfl⟩ := start
    simp
  rw [names row member, Option.some.injEq] at fourth
  subst value
  exact doubleQuotes_append_ne quote _ _ split.symm

theorem nameKept_of_plain (journal : Journal) {fileName : List Char} (plain : '"' ∉ fileName) :
    NameKept (document journal fileName) fileName journal.records.length := by
  have read : read? (document journal fileName) =
      some (columns :: journal.records.map (values fileName)) := by
    rw [document_eq plain]
    refine readAll_rows [] _ fun v member => ?_
    rcases List.mem_cons.mp member with rfl | member
    · decide
    · obtain ⟨r, _, rfl⟩ := List.mem_map.mp member
      exact List.cons_ne_nil _ _
  refine ⟨_, _, read, List.length_map _, ?_, ?_⟩
  · intro v member
    rcases List.mem_cons.mp member with rfl | member
    · rfl
    · obtain ⟨r, _, rfl⟩ := List.mem_map.mp member
      rfl
  · intro v member
    obtain ⟨r, _, rfl⟩ := List.mem_map.mp member
    rfl

/-- The names that come through are those without a quote, if there are records at all. -/
theorem nameKept_document_iff (journal : Journal) (fileName : List Char) :
    NameKept (document journal fileName) fileName journal.records.length ↔
      journal.records = [] ∨ '"' ∉ fileName := by
  constructor
  · intro kept
    by_cases quote : '"' ∈ fileName
    · refine .inl (Decidable.byContradiction fun filled => ?_)
      exact not_nameKept_of_quote filled quote _ kept
    · exact .inr quote
  · rintro (none | plain)
    · refine ⟨columns, [], ?_, by rw [none]; rfl, by decide, by simp⟩
      rw [document, none, List.flatMap_nil]
      decide
    · exact nameKept_of_plain journal plain

/-- One record, and a name with a quote in it that makes the rest of the name pass for a second. -/
example :
    read? (document { records := [⟨5, 1, [0x41]⟩] } "x\"\n\"2\",\"10\",\"B\",\"x".toList) =
      some [columns, ["1".toList, "5".toList, "A".toList, "x".toList],
        ["2".toList, "10".toList, "B".toList, "x".toList]] := by decide

end RamLog.Csv
