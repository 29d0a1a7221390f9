import GradeIo.Assignment
import GradeIo.Lib.Completion
import GradeIo.Lib.Split

/-!
# Problems from a file

`StorageHelper.CSVParse`: a file is downloaded, decoded, split into lines and
each line into fields, of which the first two are a problem. The loop traps on a
line with a single field, and so does decoding on bytes that are not UTF-8: the
files that are parsed are those with a comma in every line (`parsed_iff`), and
a rendered list of problems is one of them (`once_render`).
-/

namespace GradeIo

open Completion

/-- `components(separatedBy:)`. -/
def componentsSeparatedBy (separator string : String) : List String :=
  (Split.components separator.toList string.toList).map String.ofList

/-- What `getData` hands to its handler: the content of the file, or an error,
also for a file over the maximal size. -/
inductive Download where
  | error
  | data (data : ByteArray)

namespace StorageHelper

/-- A round of the loop: `temp[1]` is out of range in a line without a comma. -/
def appendProblem (problems : List Problem) (component : String) : Option (List Problem) := do
  let temp := componentsSeparatedBy "," component
  let question ← temp[0]?
  let answer ← temp[1]?
  some (problems ++ [⟨question, answer⟩])

/-- `String(data:encoding:)` is nil unless the bytes are UTF-8, and the list of
components is unwrapped. -/
def csvParse : Download → Calls (List Problem)
  | .error => pure []
  | .data data => do
      let string := String.fromUTF8? data
      let substr ← Calls.unwrap (string.map (componentsSeparatedBy "\r\n"))
      Calls.unwrap (substr.foldlM appendProblem [])

/-! ## What the file contains -/

/-- The lines of a file that can be decoded. -/
def lines (data : ByteArray) : List String :=
  ((String.fromUTF8? data).map (componentsSeparatedBy "\r\n")).getD []

/-- The problem in a line with at least two fields. -/
def problemOfLine (line : String) : Option Problem :=
  match componentsSeparatedBy "," line with
  | question :: answer :: _ => some ⟨question, answer⟩
  | _ => none

/-- The handler is called once, with the problems of the lines that have one. -/
def Parsed (data : ByteArray) : Prop :=
  (csvParse (.data data)).Once ((lines data).filterMap problemOfLine)

/-! ## The loop -/

theorem appendProblem_eq (problems : List Problem) (line : String) :
    appendProblem problems line = (problemOfLine line).map fun p => problems ++ [p] := by
  unfold appendProblem problemOfLine
  rcases componentsSeparatedBy "," line with _ | ⟨question, _ | ⟨answer, rest⟩⟩ <;> rfl

/-- The loop decodes line by line. -/
theorem foldlM_appendProblem (substr : List String) (problems : List Problem) :
    substr.foldlM appendProblem problems =
      (substr.mapM problemOfLine).map fun ps => problems ++ ps := by
  induction substr generalizing problems with
  | nil => simp
  | cons line substr ih =>
      rw [List.foldlM_cons, appendProblem_eq, List.mapM_cons]
      cases problemOfLine line with
      | none => rfl
      | some p =>
          show substr.foldlM appendProblem (problems ++ [p]) = _
          rw [ih]
          cases substr.mapM problemOfLine with
          | none => rfl
          | some ps => simp

/-- All there is to know of a parsed file. -/
theorem once_data_iff {data : ByteArray} {ps : List Problem} :
    (csvParse (.data data)).Once ps ↔ ∃ string, String.fromUTF8? data = some string
      ∧ (componentsSeparatedBy "\r\n" string).mapM problemOfLine = some ps := by
  have hparse : csvParse (.data data) = Calls.unwrap
      (((String.fromUTF8? data).map (componentsSeparatedBy "\r\n")).bind fun substr =>
        substr.foldlM appendProblem []) := Calls.unwrap_bind_unwrap _ _
  have hloop : ∀ substr : List String,
      substr.foldlM appendProblem [] = substr.mapM problemOfLine := by
    intro substr
    rw [foldlM_appendProblem]
    cases substr.mapM problemOfLine <;> rfl
  rw [hparse, Calls.once_unwrap]
  simp only [hloop, Option.bind_eq_some_iff, Option.map_eq_some_iff]
  constructor
  · rintro ⟨substr, ⟨string, hstring, rfl⟩, h⟩
    exact ⟨string, hstring, h⟩
  · rintro ⟨string, hstring, h⟩
    exact ⟨_, ⟨string, hstring, rfl⟩, h⟩

/-! ## Which files are parsed -/

theorem exists_problemOfLine_iff (line : String) :
    (∃ p, problemOfLine line = some p) ↔ ',' ∈ line.toList := by
  have hmem : ',' ∈ line.toList ↔
      ∃ a b ls, Split.components ",".toList line.toList = a :: b :: ls := by
    rw [Split.exists_components_cons_cons_iff (by decide)]
    exact (List.singleton_infix_iff ',' line.toList).symm
  rw [hmem]
  unfold problemOfLine componentsSeparatedBy
  rcases Split.components ",".toList line.toList with _ | ⟨a, _ | ⟨b, ls⟩⟩ <;> simp

/-- The bytes are UTF-8, and there is a comma in every line. -/
theorem parsed_iff (data : ByteArray) : Parsed data ↔
    ∃ string, String.fromUTF8? data = some string
      ∧ ∀ line ∈ componentsSeparatedBy "\r\n" string, ',' ∈ line.toList := by
  unfold Parsed
  rw [once_data_iff]
  refine exists_congr fun string => and_congr_right fun hstring => ?_
  have hlines : lines data = componentsSeparatedBy "\r\n" string := by
    rw [lines, hstring]
    rfl
  simp only [hlines, ← exists_problemOfLine_iff, ← DocDb.exists_mapM_eq_some_iff]
  constructor
  · intro h
    exact ⟨_, h⟩
  · rintro ⟨ps, hps⟩
    rw [hps, DocDb.filterMap_of_mapM hps]

/-- A file that ends in a line break has a last, empty line. -/
theorem not_parsed : ¬ ∀ data, Parsed data := by
  intro h
  obtain ⟨string, hstring, hps⟩ := once_data_iff.mp (h "1 + 1,2\r\n".toUTF8)
  have heq : String.fromUTF8? "1 + 1,2\r\n".toUTF8 = some "1 + 1,2\r\n" :=
    dif_pos (String.isValidUTF8 _)
  obtain rfl := Option.some.inj (heq.symm.trans hstring)
  have hlast : "" ∈ componentsSeparatedBy "\r\n" "1 + 1,2\r\n" := by decide
  have hproblem := DocDb.exists_mapM_eq_some_iff.mp ⟨_, hps⟩ _ hlast
  exact absurd ((exists_problemOfLine_iff "").mp hproblem) (by decide)

/-! ## Rendering -/

/-- A line for a problem, with further columns. -/
def renderLine (row : Problem × List String) : String :=
  ",".intercalate (row.1.question :: row.1.answer :: row.2)

def render (rows : List (Problem × List String)) : String :=
  "\r\n".intercalate (rows.map renderLine)

/-- No line break in the text. -/
def NoBreak (text : String) : Prop := ¬ "\r\n".toList <:+: text.toList

instance (text : String) : Decidable (NoBreak text) := inferInstanceAs (Decidable (¬ _))

/-- What can stand in the file for a problem: neither of its texts has a comma,
and no text of the line a line break. -/
structure Plain (row : Problem × List String) : Prop where
  question : ',' ∉ row.1.question.toList ∧ NoBreak row.1.question
  answer : ',' ∉ row.1.answer.toList ∧ NoBreak row.1.answer
  columns : ∀ text ∈ row.2, NoBreak text

section

variable {row : Problem × List String} {rows : List (Problem × List String)}

/-- The commas between the texts do not make a line break of what they separate. -/
theorem Plain.noBreak (h : Plain row) : NoBreak (renderLine row) := by
  unfold NoBreak renderLine
  rw [String.toList_intercalate]
  refine Split.not_infix_intercalate (by decide) (by decide) fun l hl => ?_
  obtain ⟨text, htext, rfl⟩ := List.mem_map.mp hl
  rcases List.mem_cons.mp htext with rfl | htext
  · exact h.question.2
  · rcases List.mem_cons.mp htext with rfl | htext
    · exact h.answer.2
    · exact h.columns text htext

theorem components_comma {text : String} (h : ',' ∉ text.toList) (rest : List Char) :
    Split.components [','] (text.toList ++ ',' :: rest) =
      text.toList :: Split.components [','] rest :=
  Split.components_append (by decide) (by decide) ((List.singleton_infix_iff _ _).not.mpr h)

/-- The first two fields are the problem, whatever follows. -/
theorem Plain.problemOfLine_eq (h : Plain row) : problemOfLine (renderLine row) = some row.1 := by
  obtain ⟨⟨question, answer⟩, columns⟩ := row
  obtain ⟨ls, hls⟩ : ∃ ls, Split.components [','] ([','].intercalate
      (answer.toList :: columns.map String.toList)) = answer.toList :: ls := by
    cases columns with
    | nil =>
        rw [List.map_nil, List.intercalate_singleton, Split.components_eq_singleton
          ((List.singleton_infix_iff _ _).not.mpr h.answer.1)]
        exact ⟨[], rfl⟩
    | cons text columns =>
        rw [List.map_cons, List.intercalate_cons_cons, List.append_assoc, List.singleton_append,
          components_comma h.answer.1]
        exact ⟨_, rfl⟩
  have hline : componentsSeparatedBy "," (renderLine ⟨⟨question, answer⟩, columns⟩) =
      question :: answer :: ls.map String.ofList := by
    unfold componentsSeparatedBy renderLine
    rw [String.toList_intercalate, List.map_cons, List.map_cons]
    show (Split.components [','] ([','].intercalate _)).map _ = _
    rw [List.intercalate_cons_cons, List.append_assoc, List.singleton_append,
      components_comma h.question.1, hls]
    simp
  unfold problemOfLine
  rw [hline]

/-- The lines come back, whatever single `\r` and `\n` there are in them. -/
theorem lines_render (hne : rows ≠ []) (h : ∀ row ∈ rows, Plain row) :
    componentsSeparatedBy "\r\n" (render rows) = rows.map renderLine := by
  have hbreaks : ∀ l ∈ (rows.map renderLine).map String.toList, ¬ "\r\n".toList <:+: l := by
    intro l hl
    obtain ⟨line, hline, rfl⟩ := List.mem_map.mp hl
    obtain ⟨row, hrow, rfl⟩ := List.mem_map.mp hline
    exact (h row hrow).noBreak
  unfold componentsSeparatedBy render
  rw [String.toList_intercalate, Split.components_intercalate (by decide) (by decide)
    (by simpa using hne) hbreaks, List.map_map]
  simp

/-- Parsing undoes rendering. -/
theorem once_render (hne : rows ≠ []) (h : ∀ row ∈ rows, Plain row) :
    (csvParse (.data (render rows).toUTF8)).Once (rows.map Prod.fst) := by
  rw [once_data_iff]
  refine ⟨render rows, dif_pos (String.isValidUTF8 _), ?_⟩
  rw [lines_render hne h]
  clear hne
  induction rows with
  | nil => rfl
  | cons row rows ih =>
      rw [List.map_cons, List.mapM_cons, (h row List.mem_cons_self).problemOfLine_eq,
        ih fun x hx => h x (List.mem_cons_of_mem _ hx)]
      rfl

end

/-- An answer that ends and a question that begins next to a line break with a
half of one. -/
def halves : List (Problem × List String) :=
  [(⟨"1 + 1", "2\r"⟩, []), (⟨"\n2 + 2", "4"⟩, ["hard"])]

theorem plain_halves : ∀ row ∈ halves, Plain row := by
  intro row hrow
  rcases List.mem_cons.mp hrow with rfl | hrow
  · exact ⟨⟨by decide, by decide⟩, ⟨by decide, by decide⟩, by decide⟩
  · obtain rfl := List.mem_singleton.mp hrow
    exact ⟨⟨by decide, by decide⟩, ⟨by decide, by decide⟩, by decide⟩

theorem once_render_halves :
    (csvParse (.data (render halves).toUTF8)).Once [⟨"1 + 1", "2\r"⟩, ⟨"\n2 + 2", "4"⟩] :=
  once_render (by decide) plain_halves

end StorageHelper

end GradeIo
