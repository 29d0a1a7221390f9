import Mathlib.Data.String.Basic
import Mathlib.Tactic.Common
import GradeIo.Lib.Nested

/-!
# Field paths as text

`field_path.cc`: a path is written with dots between its segments, those that
are no identifiers in backticks, with backslashes before backslashes and
backticks. This is the format of the backend and of the local storage. What is
written is read back, or refused (`fromServerFormat_canonicalString`): refused
are the empty path, empty segments, and those with a null character, at which
the reader stops.
-/

namespace GradeIo.Firestore

open DocDb

abbrev nul : Char := Char.ofNat 0
abbrev backtick : Char := Char.ofNat 0x60
abbrev backslash : Char := Char.ofNat 0x5c

namespace FieldPath

/-! ## Writing -/

def isIdentifierStart (c : Char) : Bool :=
  c = '_' || ('a' ≤ c && c ≤ 'z') || ('A' ≤ c && c ≤ 'Z')

def isIdentifierRest (c : Char) : Bool := isIdentifierStart c || ('0' ≤ c && c ≤ '9')

def isValidIdentifier : List Char → Bool
  | [] => false
  | first :: rest => isIdentifierStart first && rest.all isIdentifierRest

def escapeChar (c : Char) : List Char :=
  if c = backslash || c = backtick then [backslash, c] else [c]

def escapedSegment (segment : String) : List Char :=
  let escaped := segment.toList.flatMap escapeChar
  if isValidIdentifier escaped then escaped else backtick :: escaped ++ [backtick]

def canonicalString (path : FieldPath) : String :=
  String.ofList (List.intercalate ['.'] (path.map escapedSegment))

/-! ## Reading -/

structure Scan where
  segments : List String
  segment : List Char
  insideBackticks : Bool

def invalidFieldPath (path : String) : String :=
  "Invalid field path (" ++ path ++ "). Paths must not be empty, begin with '.', end with '.', "
    ++ "or contain '..'"

def finishSegment (path : String) (st : Scan) : Except String Scan :=
  if st.segment = [] then .error (invalidFieldPath path)
  else .ok ⟨st.segments ++ [String.ofList st.segment], [], st.insideBackticks⟩

def scan (path : String) : List Char → Scan → Except String Scan
  | [], st => .ok st
  | c :: rest, st =>
      if c = nul then .ok st
      else if c = '.' then
        if st.insideBackticks then scan path rest { st with segment := st.segment ++ [c] }
        else
          match finishSegment path st with
          | .error e => .error e
          | .ok st => scan path rest st
      else if c = backtick then
        scan path rest { st with insideBackticks := !st.insideBackticks }
      else if c = backslash then
        match rest with
        | [] => .error ("Trailing escape characters not allowed in " ++ path)
        | d :: rest => scan path rest { st with segment := st.segment ++ [d] }
      else scan path rest { st with segment := st.segment ++ [c] }

/-- At the end of the text, or where the scan stopped. -/
def finish (path : String) (st : Scan) : Except String FieldPath :=
  match finishSegment path st with
  | .error e => .error e
  | .ok st =>
      if st.insideBackticks then .error ("Unterminated \x60 in path " ++ path)
      else .ok st.segments

def fromServerFormat (path : String) : Except String FieldPath :=
  match scan path path.toList ⟨[], [], false⟩ with
  | .error e => .error e
  | .ok st => finish path st

/-- The keys of an update: no escapes, and none of the characters of a pattern. -/
def fromDotSeparatedString (path : String) : Except String FieldPath :=
  if path.toList.any (· ∈ ['~', '*', '/', '[', ']']) then
    .error ("Invalid field path (" ++ path ++ "). Paths must not contain '~', '*', '/', '[', or ']'")
  else
    let segments := path.toList.splitOn '.'
    if segments.any List.isEmpty then .error (invalidFieldPath path)
    else .ok (segments.map String.ofList)

/-! ## What is written is read -/

/-- What a text format can carry. -/
def Printable (p : FieldPath) : Prop := p ≠ [] ∧ ∀ s ∈ p, s ≠ "" ∧ nul ∉ s.toList

variable {path : String} {segs : List String} {acc s rest : List Char}

theorem scan_nul (st : Scan) : scan path (nul :: rest) st = .ok st := by
  unfold scan
  rw [if_pos rfl]

theorem scan_backtick (st : Scan) : scan path (backtick :: rest) st =
    scan path rest { st with insideBackticks := !st.insideBackticks } := by
  conv_lhs => unfold scan
  rw [if_neg (by decide), if_neg (by decide), if_pos rfl]

theorem scan_backslash (d : Char) (st : Scan) : scan path (backslash :: d :: rest) st =
    scan path rest { st with segment := st.segment ++ [d] } := by
  conv_lhs => unfold scan
  rw [if_neg (by decide), if_neg (by decide), if_neg (by decide), if_pos rfl]

theorem scan_dot_inside : scan path ('.' :: rest) ⟨segs, acc, true⟩ =
    scan path rest ⟨segs, acc ++ ['.'], true⟩ := by
  conv_lhs => unfold scan
  rw [if_neg (by decide), if_pos rfl, if_pos rfl]

theorem scan_plain {c : Char} (hnul : c ≠ nul) (hdot : c ≠ '.') (htick : c ≠ backtick)
    (hslash : c ≠ backslash) (st : Scan) :
    scan path (c :: rest) st = scan path rest { st with segment := st.segment ++ [c] } := by
  conv_lhs => unfold scan
  rw [if_neg hnul, if_neg hdot, if_neg htick, if_neg hslash]

/-- Between backticks every character stands for itself, the two special ones
behind a backslash. -/
theorem scan_escaped (h : nul ∉ s) :
    scan path (s.flatMap escapeChar ++ rest) ⟨segs, acc, true⟩ =
      scan path rest ⟨segs, acc ++ s, true⟩ := by
  induction s generalizing acc with
  | nil => simp
  | cons c s ih =>
      have hc : c ≠ nul := fun hc => h (hc ▸ List.mem_cons_self)
      have hs : nul ∉ s := fun hs => h (List.mem_cons_of_mem _ hs)
      have hstep : ∀ r, scan path (escapeChar c ++ r) ⟨segs, acc, true⟩ =
          scan path r ⟨segs, acc ++ [c], true⟩ := by
        intro r
        unfold escapeChar
        by_cases hesc : c = backslash ∨ c = backtick
        · rw [if_pos (by simpa using hesc)]
          exact scan_backslash c _
        · rw [if_neg (by simpa using hesc)]
          obtain ⟨hslash, htick⟩ := not_or.mp hesc
          by_cases hdot : c = '.'
          · subst hdot
            exact scan_dot_inside
          · exact scan_plain hc hdot htick hslash _
      rw [List.flatMap_cons, List.append_assoc, hstep, ih hs, List.append_assoc,
        List.singleton_append]

/-- A null character between backticks is where the reader stops. -/
theorem scan_escaped_nul (h : nul ∈ s) :
    ∃ acc', scan path (s.flatMap escapeChar ++ rest) ⟨segs, acc, true⟩ =
      .ok ⟨segs, acc', true⟩ := by
  obtain ⟨s₁, s₂, rfl, hnot⟩ := List.eq_append_cons_of_mem h
  refine ⟨acc ++ s₁, ?_⟩
  have hnul : escapeChar nul = [nul] := by decide
  rw [List.flatMap_append, List.append_assoc, scan_escaped hnot, List.flatMap_cons, hnul,
    List.append_assoc, List.singleton_append]
  exact scan_nul _

theorem isIdentifierRest_of_start {c : Char} (h : isIdentifierStart c = true) :
    isIdentifierRest c = true := by
  rw [isIdentifierRest, h, Bool.true_or]

theorem all_of_isValidIdentifier {l : List Char} (h : isValidIdentifier l = true) :
    ∀ c ∈ l, isIdentifierRest c = true := by
  cases l with
  | nil => cases h
  | cons first l =>
      rw [isValidIdentifier, Bool.and_eq_true, List.all_eq_true] at h
      exact List.forall_mem_cons.mpr ⟨isIdentifierRest_of_start h.1, h.2⟩

/-- None of the characters of an identifier means anything to the reader. -/
theorem ne_of_isIdentifierRest {c : Char} (h : isIdentifierRest c = true) :
    c ≠ nul ∧ c ≠ '.' ∧ c ≠ backtick ∧ c ≠ backslash := by
  have hne : ∀ d, isIdentifierRest d = false → c ≠ d := by
    intro d hd hcd
    rw [hcd, hd] at h
    cases h
  exact ⟨hne nul rfl, hne '.' rfl, hne backtick rfl, hne backslash rfl⟩

/-- An identifier is written as it is. -/
theorem escaped_of_isValidIdentifier (h : isValidIdentifier (s.flatMap escapeChar) = true) :
    s.flatMap escapeChar = s := by
  have hall := all_of_isValidIdentifier h
  clear h
  induction s with
  | nil => rfl
  | cons c s ih =>
      rw [List.flatMap_cons] at hall ⊢
      have hc : escapeChar c = [c] := by
        unfold escapeChar
        split
        · rename_i hesc
          have hslash := hall backslash (by simp [escapeChar, hesc])
          exact absurd rfl (ne_of_isIdentifierRest hslash).2.2.2
        · rfl
      rw [ih fun d hd => hall d (List.mem_append_right _ hd), hc, List.singleton_append]

theorem scan_identifier (h : ∀ c ∈ s, isIdentifierRest c = true) (b : Bool) :
    scan path (s ++ rest) ⟨segs, acc, b⟩ = scan path rest ⟨segs, acc ++ s, b⟩ := by
  induction s generalizing acc with
  | nil => simp
  | cons c s ih =>
      obtain ⟨hnul, hdot, htick, hslash⟩ := ne_of_isIdentifierRest (h c List.mem_cons_self)
      rw [List.cons_append, scan_plain hnul hdot htick hslash,
        ih fun d hd => h d (List.mem_cons_of_mem _ hd), List.append_assoc, List.singleton_append]

/-- A segment without null character is read back, up to the dot behind it. -/
theorem scan_escapedSegment {s : String} (h : nul ∉ s.toList) :
    scan path (escapedSegment s ++ rest) ⟨segs, [], false⟩ =
      scan path rest ⟨segs, s.toList, false⟩ := by
  unfold escapedSegment
  simp only
  split
  · rename_i hid
    have hs := escaped_of_isValidIdentifier hid
    rw [hs] at hid ⊢
    exact scan_identifier (all_of_isValidIdentifier hid) false
  · rw [List.cons_append, List.cons_append, List.append_assoc, scan_backtick]
    exact (scan_escaped h).trans (scan_backtick _)

theorem scan_escapedSegment_nul {s : String} (h : nul ∈ s.toList) :
    ∃ acc', scan path (escapedSegment s ++ rest) ⟨segs, [], false⟩ = .ok ⟨segs, acc', true⟩ := by
  unfold escapedSegment
  simp only
  split
  · rename_i hid
    rw [escaped_of_isValidIdentifier hid] at hid
    exact absurd rfl (ne_of_isIdentifierRest (all_of_isValidIdentifier hid nul h)).1
  · rw [List.cons_append, List.cons_append, List.append_assoc, scan_backtick]
    exact scan_escaped_nul h

/-! ## Whole paths -/

theorem scan_dot_outside (h : acc ≠ []) : scan path ('.' :: rest) ⟨segs, acc, false⟩ =
    scan path rest ⟨segs ++ [String.ofList acc], [], false⟩ := by
  conv_lhs => unfold scan
  rw [if_neg (by decide), if_pos rfl, if_neg Bool.false_ne_true, finishSegment, if_neg h]

theorem scan_dot_outside_nil : ∃ e, scan path ('.' :: rest) ⟨segs, [], false⟩ = .error e := by
  refine ⟨invalidFieldPath path, ?_⟩
  conv_lhs => unfold scan
  rw [if_neg (by decide), if_pos rfl, if_neg Bool.false_ne_true, finishSegment, if_pos rfl]

/-- What is read, from a point between two segments on. -/
def readFrom (path : String) (segs : List String) (text : List Char) : Except String FieldPath :=
  match scan path text ⟨segs, [], false⟩ with
  | .error e => .error e
  | .ok st => finish path st

theorem readFrom_segment {s : String} (h : s ≠ "" ∧ nul ∉ s.toList) :
    readFrom path segs (escapedSegment s) = .ok (segs ++ [s]) := by
  have hscan : scan path (escapedSegment s ++ []) ⟨segs, [], false⟩ =
      scan path [] ⟨segs, s.toList, false⟩ := scan_escapedSegment h.2
  rw [List.append_nil] at hscan
  have hne : s.toList ≠ [] := by simpa using h.1
  unfold readFrom
  rw [hscan]
  unfold scan finish finishSegment
  simp [hne]

theorem readFrom_segment_dot {s : String} (h : s ≠ "" ∧ nul ∉ s.toList) :
    readFrom path segs (escapedSegment s ++ '.' :: rest) = readFrom path (segs ++ [s]) rest := by
  have hne : s.toList ≠ [] := by simpa using h.1
  unfold readFrom
  rw [scan_escapedSegment h.2, scan_dot_outside hne, String.ofList_toList]

/-- A segment that cannot be carried spoils the text, wherever it stands. -/
theorem readFrom_bad {s : String} (h : ¬ (s ≠ "" ∧ nul ∉ s.toList))
    (hrest : rest = [] ∨ ∃ r, rest = '.' :: r) :
    ∃ e, readFrom path segs (escapedSegment s ++ rest) = .error e := by
  unfold readFrom
  by_cases hnul : nul ∈ s.toList
  · obtain ⟨acc', hscan⟩ : ∃ acc', scan path (escapedSegment s ++ rest) ⟨segs, [], false⟩ =
        .ok ⟨segs, acc', true⟩ := scan_escapedSegment_nul hnul
    rw [hscan]
    unfold finish finishSegment
    by_cases hacc : acc' = []
    · exact ⟨invalidFieldPath path, by simp [hacc]⟩
    · exact ⟨"Unterminated \x60 in path " ++ path, by simp [hacc]⟩
  · have hs : s = "" := by
      by_contra hs
      exact h ⟨hs, hnul⟩
    subst hs
    rw [scan_escapedSegment hnul]
    rcases hrest with rfl | ⟨r, rfl⟩
    · exact ⟨invalidFieldPath path, rfl⟩
    · obtain ⟨e, he⟩ : ∃ e, scan path ('.' :: r) ⟨segs, [], false⟩ = .error e :=
        scan_dot_outside_nil
      exact ⟨e, by rw [show "".toList = [] from rfl, he]⟩

theorem readFrom_canonical (p : FieldPath) (hp : p ≠ []) (q : FieldPath) :
    readFrom path segs (List.intercalate ['.'] (p.map escapedSegment)) = .ok q ↔
      q = segs ++ p ∧ ∀ s ∈ p, s ≠ "" ∧ nul ∉ s.toList := by
  induction p generalizing segs with
  | nil => exact absurd rfl hp
  | cons s p ih =>
      by_cases hs : s ≠ "" ∧ nul ∉ s.toList
      · cases p with
        | nil =>
            rw [List.map_singleton, List.intercalate_singleton, readFrom_segment hs]
            constructor
            · intro h
              exact ⟨(Except.ok.inj h).symm, by simpa using hs⟩
            · rintro ⟨rfl, -⟩
              rfl
        | cons s' p =>
            have hjoin : List.intercalate ['.'] ((s :: s' :: p).map escapedSegment) =
                escapedSegment s ++ '.' :: List.intercalate ['.'] ((s' :: p).map escapedSegment) := by
              simp [List.intercalate]
            rw [hjoin, readFrom_segment_dot hs, ih (List.cons_ne_nil s' p), List.append_assoc,
              List.singleton_append, List.forall_mem_cons (a := s)]
            simp [hs]
      · have hjoin : ∃ r, List.intercalate ['.'] ((s :: p).map escapedSegment) =
            escapedSegment s ++ r ∧ (r = [] ∨ ∃ r', r = '.' :: r') := by
          cases p with
          | nil => exact ⟨[], by simp [List.intercalate], Or.inl rfl⟩
          | cons s' p =>
              exact ⟨'.' :: List.intercalate ['.'] ((s' :: p).map escapedSegment),
                by simp [List.intercalate], Or.inr ⟨_, rfl⟩⟩
        obtain ⟨r, hr, hdot⟩ := hjoin
        obtain ⟨e, he⟩ : ∃ e, readFrom path segs (escapedSegment s ++ r) = .error e :=
          readFrom_bad hs hdot
        rw [hr, he]
        constructor
        · intro h
          cases h
        · rintro ⟨-, hall⟩
          exact absurd (hall s List.mem_cons_self) hs

/-- Reading what was written gives the path again, or an error: an error exactly
for the paths that the format cannot carry. -/
theorem fromServerFormat_canonicalString (p q : FieldPath) :
    fromServerFormat (canonicalString p) = .ok q ↔ q = p ∧ Printable p := by
  have hread : fromServerFormat (canonicalString p) = readFrom (canonicalString p) []
      (List.intercalate ['.'] (p.map escapedSegment)) := by
    unfold fromServerFormat readFrom canonicalString
    rw [String.toList_ofList]
  by_cases hp : p = []
  · subst hp
    constructor
    · intro h
      cases h
    · rintro ⟨-, hne, -⟩
      exact absurd rfl hne
  · rw [hread, readFrom_canonical p hp q, List.nil_append]
    simp [Printable, hp]

end FieldPath

end GradeIo.Firestore
