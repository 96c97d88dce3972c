import RamLog.Csv.Reader
import RamLog.Csv.Writer
import RamLog.Proofs.Text.Numerals

/-!
# CSV read back

Reading the rows that were written gives the fields that were written: inside quotes the reader
takes every character for itself and a doubled quote for one (`readAll_doubleQuotes`), so nothing
in a field can end it (`readAll_line`), and nothing in a row can begin another (`readAll_rows`).
-/
namespace RamLog.Csv

open Text Reader

/-- Between quotes, a text with its quotes doubled is added to the field as it was. -/
theorem readAll_doubleQuotes (rows : List Row) (fields : Row) (begun text rest : List Char) :
    State.readAll ⟨rows, fields, begun, .quoted⟩ (doubleQuotes text ++ rest) =
      State.readAll ⟨rows, fields, begun ++ text, .quoted⟩ rest := by
  induction text generalizing begun with
  | nil =>
    rw [List.append_nil]
    rfl
  | cons c text ih =>
    have first : doubleQuotes (c :: text) =
        (if c = '"' then ['"', '"'] else [c]) ++ doubleQuotes text := rfl
    have grown : begun ++ c :: text = (begun ++ [c]) ++ text := by simp
    rw [first, grown, ← ih (begun ++ [c])]
    by_cases quote : c = '"'
    · subst c
      rfl
    · simp [State.readAll, State.step, State.add, quote]

/-- A field, from its opening quote to its closing one. -/
theorem readAll_field (rows : List Row) (fields : Row) (value rest : List Char) :
    State.readAll ⟨rows, fields, [], .start⟩ (field (doubleQuotes value) ++ rest) =
      State.readAll ⟨rows, fields, value, .closing⟩ rest := by
  have parts : field (doubleQuotes value) ++ rest =
      '"' :: (doubleQuotes value ++ '"' :: rest) := by simp [field]
  calc State.readAll ⟨rows, fields, [], .start⟩ (field (doubleQuotes value) ++ rest)
      = State.readAll ⟨rows, fields, [], .quoted⟩ (doubleQuotes value ++ '"' :: rest) := by
        rw [parts]
        rfl
    _ = State.readAll ⟨rows, fields, value, .quoted⟩ ('"' :: rest) :=
        readAll_doubleQuotes rows fields [] value _
    _ = State.readAll ⟨rows, fields, value, .closing⟩ rest := rfl

def line (values : Row) : List Char := [','].intercalate (values.map fun v => field (doubleQuotes v))

/-- A line leaves the reader behind its last field, whatever the fields hold. -/
theorem readAll_line (rows : List Row) (fields : Row) (value : List Char) (values : Row)
    (rest : List Char) :
    State.readAll ⟨rows, fields, [], .start⟩ (line (value :: values) ++ rest) =
      State.readAll ⟨rows, fields ++ (value :: values).dropLast,
        (value :: values).getLast (List.cons_ne_nil _ _), .closing⟩ rest := by
  induction values generalizing fields value with
  | nil =>
    have only : line [value] = field (doubleQuotes value) := by simp [line]
    rw [only, readAll_field]
    simp
  | cons next values ih =>
    have parts : line (value :: next :: values) ++ rest =
        field (doubleQuotes value) ++ (',' :: (line (next :: values) ++ rest)) := by simp [line]
    have comma : State.readAll ⟨rows, fields, value, .closing⟩
          (',' :: (line (next :: values) ++ rest)) =
        State.readAll ⟨rows, fields ++ [value], [], .start⟩ (line (next :: values) ++ rest) := rfl
    rw [parts, readAll_field, comma, ih]
    simp

/-- A line by itself is a document of one row. -/
theorem read?_line (values : Row) (filled : values ≠ []) : read? (line values) = some [values] := by
  obtain ⟨value, others, rfl⟩ := List.exists_cons_of_ne_nil filled
  have all := readAll_line [] [] value others []
  rw [List.append_nil] at all
  rw [read?, all]
  simp [State.readAll, State.finish, State.endRow, State.endField, List.dropLast_concat_getLast]

/-- Rows written one after another are read one after another. -/
theorem readAll_rows (rows table : List Row) (filled : ∀ values ∈ table, values ≠ []) :
    State.readAll ⟨rows, [], [], .start⟩ (table.flatMap fun values => line values ++ ['\n']) =
      some (rows ++ table) := by
  induction table generalizing rows with
  | nil => simp [State.readAll, State.finish]
  | cons values table ih =>
    obtain ⟨value, others, rfl⟩ := List.exists_cons_of_ne_nil (filled values (by simp))
    have ended : State.readAll ⟨rows, (value :: others).dropLast,
          (value :: others).getLast (List.cons_ne_nil _ _), .closing⟩
          ('\n' :: table.flatMap fun values => line values ++ ['\n']) =
        State.readAll ⟨rows ++ [value :: others], [], [], .start⟩
          (table.flatMap fun values => line values ++ ['\n']) := by
      simp [State.readAll, State.step, State.endRow, State.endField, List.dropLast_concat_getLast]
    rw [List.flatMap_cons, List.append_assoc, readAll_line, List.nil_append, List.singleton_append,
      ended, ih _ fun v member => filled v (by simp [member])]
    simp

theorem mem_doubleQuotes {c : Char} {text : List Char} : c ∈ doubleQuotes text ↔ c ∈ text := by
  rw [doubleQuotes, List.mem_flatMap]
  constructor
  · rintro ⟨d, member, same⟩
    split at same <;> simp_all
  · intro member
    exact ⟨c, member, by split <;> simp_all⟩

theorem doubleQuotes_eq_self {text : List Char} (plain : '"' ∉ text) : doubleQuotes text = text := by
  induction text with
  | nil => rfl
  | cons c text ih =>
    rw [List.mem_cons, not_or] at plain
    rw [doubleQuotes, List.flatMap_cons, if_neg (Ne.symm plain.1)]
    exact congrArg (c :: ·) (ih plain.2)

theorem doubleQuotes_digits (n : Nat) : doubleQuotes (Decimal.digits n) = Decimal.digits n := by
  refine doubleQuotes_eq_self fun quote => ?_
  have digit := Decimal.isDigit_of_mem_digits quote
  contradiction

/-- The characters of a line are those of its fields, apart from commas and quotes. -/
theorem mem_line {c : Char} {values : Row} (member : c ∈ line values) :
    c = ',' ∨ c = '"' ∨ ∃ value ∈ values, c ∈ value := by
  have inField : ∀ value, c ∈ field (doubleQuotes value) → c = '"' ∨ c ∈ value := by
    intro value inside
    simp only [field, List.cons_append, List.mem_cons, List.mem_append, mem_doubleQuotes,
      List.not_mem_nil, or_false] at inside
    rcases inside with quote | text | quote
    · exact .inl quote
    · exact .inr text
    · exact .inl quote
  induction values with
  | nil => simp [line] at member
  | cons value values ih =>
    cases values with
    | nil =>
      have here := inField value (by simpa [line] using member)
      rcases here with quote | inside
      · exact .inr (.inl quote)
      · exact .inr (.inr ⟨value, by simp, inside⟩)
    | cons next values =>
      have parts : line (value :: next :: values) =
          field (doubleQuotes value) ++ ',' :: line (next :: values) := by simp [line]
      rw [parts, List.mem_append, List.mem_cons] at member
      rcases member with here | comma | further
      · rcases inField value here with quote | inside
        · exact .inr (.inl quote)
        · exact .inr (.inr ⟨value, by simp, inside⟩)
      · exact .inl comma
      · rcases ih further with comma | quote | ⟨v, member, inside⟩
        · exact .inl comma
        · exact .inr (.inl quote)
        · exact .inr (.inr ⟨v, by simp [member], inside⟩)

def values (fileName : List Char) (r : Record) : Row := [
  Decimal.digits r.id.toNat, Decimal.digits r.offset, readable (beforeNul r.text), fileName]

theorem row_columns : row columns = line columns ++ ['\n'] := rfl

/-- The row of a record, if the name of the file can stand between quotes as it is. -/
theorem row_insides {fileName : List Char} (plain : '"' ∉ fileName) (r : Record) :
    row (insides fileName r) = line (values fileName r) ++ ['\n'] := by
  simp only [row, insides, values, line, List.map_cons, List.map_nil, doubleQuotes_digits,
    doubleQuotes_eq_self plain, message]

theorem document_eq {fileName : List Char} (plain : '"' ∉ fileName) (journal : Journal) :
    document journal fileName =
      (columns :: journal.records.map (values fileName)).flatMap fun v => line v ++ ['\n'] := by
  simp only [document, row_columns, row_insides plain, List.flatMap_cons, List.flatMap_map]

/-- A record's row takes one line if the name of the file does. -/
theorem newline_notMem_line {fileName : List Char} (single : '\n' ∉ fileName) (r : Record) :
    '\n' ∉ line (values fileName r) := by
  intro member
  have digits := fun n => lineFeed_notMem (Decimal.all_isPrintable_digits n)
  have text : '\n' ∉ readable (beforeNul r.text) := by
    intro newline
    have printed := isControl_eq_false_of_mem_readable newline
    contradiction
  rcases mem_line member with comma | quote | ⟨value, field, inside⟩
  · contradiction
  · contradiction
  · simp only [values, List.mem_cons, List.not_mem_nil, or_false] at field
    rcases field with rfl | rfl | rfl | rfl
    · exact digits _ inside
    · exact digits _ inside
    · exact text inside
    · exact single inside

/-- The CSV text of a journal reads back to its records, whatever octets were logged, as long as no
quote stands in the name of the file; and if no line feed stands there either, every record takes
one line, which reads back by itself. -/
theorem read?_document (journal : Journal) (fileName : List Char) (plain : '"' ∉ fileName) :
    read? (document journal fileName) =
      some (["Id".toList, "Offset".toList, "Msg".toList, "File".toList] ::
        journal.records.map fun r => [Decimal.digits r.id.toNat, Decimal.digits r.offset,
          readable (beforeNul r.text), fileName]) ∧
    ('\n' ∉ fileName →
      (document journal fileName).count '\n' = journal.records.length + 1 ∧
      ∃ title lines, (document journal fileName).splitOn '\n' = title :: lines ++ [[]] ∧
        read? title = some [["Id".toList, "Offset".toList, "Msg".toList, "File".toList]] ∧
        lines.map read? = journal.records.map fun r =>
          some [[Decimal.digits r.id.toNat, Decimal.digits r.offset,
            readable (beforeNul r.text), fileName]]) := by
  constructor
  · rw [document_eq plain, read?]
    refine readAll_rows [] _ fun v member => ?_
    rcases List.mem_cons.mp member with rfl | member
    · decide
    · obtain ⟨r, _, rfl⟩ := List.mem_map.mp member
      exact List.cons_ne_nil _ _
  · intro single
    have lines : document journal fileName =
        (line columns :: journal.records.map fun r => line (values fileName r)).flatMap
          (· ++ ['\n']) := by
      simp only [document_eq plain, List.flatMap_cons, List.flatMap_map]
    have each : ∀ l ∈ line columns :: journal.records.map fun r => line (values fileName r),
        '\n' ∉ l := by
      intro l member
      rcases List.mem_cons.mp member with rfl | member
      · decide
      · obtain ⟨r, _, rfl⟩ := List.mem_map.mp member
        exact newline_notMem_line single r
    rw [lines]
    refine ⟨?_, _, _, splitOn_lines _ each, read?_line columns (by decide), ?_⟩
    · rw [count_lines _ each, List.length_cons, List.length_map]
    · rw [List.map_map]
      exact List.map_congr_left fun r _ => read?_line (values fileName r) (List.cons_ne_nil _ _)

/-- A message of quotes, a comma, a line feed and a truncated character. -/
theorem read?_document_quotes :
    let journal : Journal :=
      { records := [{ offset := 128, id := 7, text := [0x22, 0x2C, 0x22, 0x0A, 0xC3, 0, 0x41] }] }
    '"' ∉ "out.bin".toList ∧ '\n' ∉ "out.bin".toList ∧
      read? (document journal "out.bin".toList) = some [
        ["Id".toList, "Offset".toList, "Msg".toList, "File".toList],
        ["7".toList, "128".toList, ['"', ',', '"', Utf8.replacement], "out.bin".toList]] ∧
      (document journal "out.bin".toList).count '\n' = 2 := by
  intro journal
  have plain : '"' ∉ "out.bin".toList := by decide
  have single : '\n' ∉ "out.bin".toList := by decide
  obtain ⟨rows, lines⟩ := read?_document journal "out.bin".toList plain
  exact ⟨plain, single, rows, (lines single).1⟩

end RamLog.Csv
