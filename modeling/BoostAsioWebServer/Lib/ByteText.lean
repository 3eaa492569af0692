/-
  File:      BoostAsioWebServer/Lib/ByteText.lean
  Subject:   BYTE STRINGS: searching a text, and reading it line by line.

  A byte string is a list of bytes. This file holds the text operations a C++ program takes from
  its standard library, and a reference reader of CRLF-terminated lines:

  * `ascii`: the bytes of an ASCII literal; byte strings are ordered as `std::string` orders them;
  * `decimalValue`, `intText`: decimal numbers, read and written;
  * `find`: the first position of a pattern (`std::string::find`), with its specification
    (`find_eq_some_iff`, `find_eq_none_iff`) and the two facts a delimiter gives
    (`find_cons_append`, `lt_of_find_append_cons`);
  * `textBefore`: the text before the first delimiter; a part of a split text has no delimiter
    (`not_mem_of_mem_splitOn`);
  * `readLine`, `readSection`: the lines of a section up to its first empty line.
    `readSection_lines`: what was written as lines is read back as those lines, and the rest of
    the text is untouched.
-/
import Mathlib.Data.List.Basic
import Mathlib.Data.List.Infix
import Mathlib.Data.List.Lex
import Mathlib.Data.List.TakeWhile
import Mathlib.Order.Defs.LinearOrder
import Mathlib.Tactic.Common

namespace ByteText

/-- A byte string (`std::string`). -/
abbrev Bytes := List UInt8

/-- The byte of an ASCII character. -/
abbrev chr (c : Char) : UInt8 := c.toUInt8

/-- The bytes of an ASCII text. -/
def ascii (text : String) : Bytes := text.toList.map chr

/-- Bytes are ordered by value. -/
instance linearOrderUInt8 : LinearOrder UInt8 where
  le_refl _ := UInt8.le_refl _
  le_trans _ _ _ := UInt8.le_trans
  le_antisymm _ _ := UInt8.le_antisymm
  le_total := UInt8.le_total
  lt_iff_le_not_ge a b := by
    rw [UInt8.lt_iff_toNat_lt, UInt8.le_iff_toNat_le, UInt8.le_iff_toNat_le]
    omega
  toDecidableLE := inferInstance
  toDecidableEq := inferInstance
  toDecidableLT := inferInstance

/-! ## 1. Decimal numbers -/

/-- A decimal digit. -/
def IsDigit (b : UInt8) : Prop := 48 ≤ b.toNat ∧ b.toNat ≤ 57

instance (b : UInt8) : Decidable (IsDigit b) := inferInstanceAs (Decidable (_ ∧ _))

/-- The number a text of digits denotes. -/
def decimalValue (digits : Bytes) : Nat := digits.foldl (fun v b => v * 10 + (b.toNat - 48)) 0

theorem decimalValue_snoc (ds : Bytes) (b : UInt8) :
    decimalValue (ds ++ [b]) = decimalValue ds * 10 + (b.toNat - 48) := by
  simp [decimalValue]

/-- The decimal text of a number, `-` before the negative ones (`std::to_string`). -/
def intText (n : Int) : Bytes :=
  if n < 0 then ascii "-" ++ (Nat.toDigits 10 n.natAbs).map chr
  else (Nat.toDigits 10 n.natAbs).map chr

/-- The text of a number denotes it. -/
theorem decimalValue_intText (n : Nat) : decimalValue (intText n) = n := by
  have hdigit : ∀ d < 10, (chr (Nat.digitChar d)).toNat - 48 = d := by decide
  have hpos : ¬ (n : Int) < 0 := by omega
  rw [intText, if_neg hpos, Int.natAbs_natCast]
  induction n using Nat.base_induction 10 (by decide) with
  | single d hd =>
    rw [Nat.toDigits_of_lt_base hd]
    show 0 * 10 + ((chr (Nat.digitChar d)).toNat - 48) = d
    rw [hdigit d hd]
    omega
  | digit m d hd hm ih =>
    rw [← Nat.toDigits_append_toDigits (by decide) hm hd, Nat.toDigits_of_lt_base hd,
      List.map_append, List.map_singleton, decimalValue_snoc, ih (by omega), hdigit d hd]
    omega

/-- Two numbers with one text are one number. -/
theorem intText_inj {m n : Nat} (h : intText m = intText n) : m = n := by
  rw [← decimalValue_intText m, h, decimalValue_intText]

/-! ## 2. Searching -/

section Find

variable {α : Type*} [DecidableEq α]

/-- The first position at which the pattern occurs. -/
def find (pat : List α) : List α → Option Nat
  | [] => if pat = [] then some 0 else none
  | a :: as => if pat <+: a :: as then some 0 else (find pat as).map (· + 1)

theorem find_eq_some_iff {pat s : List α} {i : Nat} :
    find pat s = some i ↔ i ≤ s.length ∧ pat <+: s.drop i ∧ ∀ j < i, ¬ pat <+: s.drop j := by
  induction s generalizing i with
  | nil =>
    unfold find
    by_cases hp : pat = []
    · simp only [hp, if_true, Option.some.injEq, List.length_nil, Nat.le_zero, List.nil_prefix,
        not_true_eq_false, true_and]
      constructor
      · rintro rfl
        exact ⟨rfl, fun j hj => absurd hj (Nat.not_lt_zero j)⟩
      · rintro ⟨rfl, -⟩
        rfl
    · simp only [hp, if_false, List.drop_nil, List.prefix_nil, false_and, and_false]
      simp
  | cons a as ih =>
    unfold find
    by_cases hp : pat <+: a :: as
    · rw [if_pos hp]
      constructor
      · intro h
        cases h
        exact ⟨Nat.zero_le _, hp, fun j hj => absurd hj (Nat.not_lt_zero j)⟩
      · rintro ⟨-, -, hmin⟩
        cases i with
        | zero => rfl
        | succ i => exact absurd hp (hmin 0 (Nat.succ_pos i))
    · rw [if_neg hp]
      cases i with
      | zero => simp [hp]
      | succ i =>
        simp only [Option.map_eq_some_iff, Nat.add_right_cancel_iff, exists_eq_right, ih,
          List.length_cons, Nat.add_le_add_iff_right, List.drop_succ_cons]
        refine and_congr_right fun _ => and_congr_right fun _ => ⟨fun h j hj => ?_, fun h j hj => ?_⟩
        · cases j with
          | zero => exact hp
          | succ j => exact h j (Nat.lt_of_succ_lt_succ hj)
        · exact h (j + 1) (Nat.succ_lt_succ hj)

/-- Nothing is found exactly where the pattern is no part of the text. -/
theorem find_eq_none_iff {pat s : List α} : find pat s = none ↔ ¬ pat <:+: s := by
  induction s with
  | nil =>
    unfold find
    by_cases hp : pat = [] <;> simp [hp]
  | cons a as ih =>
    unfold find
    by_cases hp : pat <+: a :: as
    · simp [hp, hp.isInfix]
    · rw [if_neg hp, Option.map_eq_none_iff, ih, List.infix_cons_iff]
      simp [hp]

/-- A pattern is first found behind a text without its first symbol. -/
theorem find_behind {p : List α} {c : α} (hc : c ∉ p) (pat q : List α) :
    find (c :: pat) (p ++ (c :: pat) ++ q) = some p.length := by
  induction p with
  | nil =>
    rw [List.nil_append, List.cons_append, find, if_pos ⟨q, List.cons_append⟩]
    rfl
  | cons a as ih =>
    have hne : c ≠ a := fun e => hc (e ▸ List.mem_cons_self)
    have hpre : ¬ c :: pat <+: a :: (as ++ (c :: pat) ++ q) := fun h =>
      hne (List.cons_prefix_cons.mp h).1
    rw [List.cons_append, List.cons_append, find, if_neg hpre,
      ih fun h => hc (List.mem_cons_of_mem _ h)]
    rfl

/-- The first delimiter of a text stands behind the part that has none. -/
theorem find_cons_append {p : List α} {c : α} (hc : c ∉ p) (q : List α) :
    find [c] (p ++ c :: q) = some p.length := by
  have h := find_behind hc [] q
  rwa [List.append_assoc] at h

omit [DecidableEq α] in
/-- A prefix without the delimiter ends before the delimiter. -/
theorem prefix_of_prefix_append_cons {pat p q : List α} {c : α} (hpat : c ∉ pat)
    (h : pat <+: p ++ c :: q) : pat <+: p := by
  by_cases hlen : pat.length ≤ p.length
  · exact List.prefix_of_prefix_length_le h (List.prefix_append p _) hlen
  · have hpc : p ++ [c] <+: p ++ c :: q := ⟨q, by simp⟩
    have hle : (p ++ [c]).length ≤ pat.length := by
      simp only [List.length_append, List.length_singleton]
      omega
    have hsub := (List.prefix_of_prefix_length_le hpc h hle).subset
    exact absurd (hsub (List.mem_append_right _ List.mem_cons_self)) hpat

/-- A pattern without the delimiter, absent before it, is found only behind it. -/
theorem lt_of_find_append_cons {pat p q : List α} {c : α} {i : Nat} (hpat : c ∉ pat)
    (hp : ¬ pat <:+: p) (h : find pat (p ++ c :: q) = some i) : p.length < i := by
  obtain ⟨-, hpre, -⟩ := find_eq_some_iff.mp h
  by_contra hle
  rw [List.drop_append_of_le_length (by omega)] at hpre
  exact hp ((prefix_of_prefix_append_cons hpat hpre).isInfix.trans (List.drop_suffix i p).isInfix)

/-- The text before the first delimiter; all of it where there is none. -/
def textBefore (c : α) (s : List α) : List α := s.takeWhile fun a => a ≠ c

theorem not_mem_textBefore (c : α) (s : List α) : c ∉ textBefore c s := by
  intro hmem
  have hne : decide (c ≠ c) = true := List.mem_takeWhile_imp (p := fun a => decide (a ≠ c)) hmem
  exact of_decide_eq_true hne rfl

theorem textBefore_append {p : List α} {c : α} (hc : c ∉ p) (q : List α) :
    textBefore c (p ++ c :: q) = p := by
  have hp : ∀ a ∈ p, decide (a ≠ c) = true := fun a ha => decide_eq_true fun e => hc (e ▸ ha)
  rw [textBefore, List.takeWhile_append_of_pos hp, List.takeWhile_cons_of_neg (by simp),
    List.append_nil]

theorem textBefore_of_not_mem {c : α} {s : List α} (hc : c ∉ s) : textBefore c s = s :=
  List.takeWhile_eq_self_iff.mpr fun _ ha => decide_eq_true fun e => hc (e ▸ ha)

/-- A text with a delimiter is cut by its first one. -/
theorem eq_textBefore_append {c : α} {s : List α} (hc : c ∈ s) :
    ∃ rest, s = textBefore c s ++ c :: rest := by
  obtain ⟨p, q, rfl, hp⟩ := List.eq_append_cons_of_mem hc
  exact ⟨q, by rw [textBefore_append hp]⟩

/-- The first delimiter stands behind the text before it. -/
theorem find_delimiter {c : α} {s : List α} (hc : c ∈ s) :
    find [c] s = some (textBefore c s).length := by
  obtain ⟨p, q, rfl, hp⟩ := List.eq_append_cons_of_mem hc
  rw [find_cons_append hp, textBefore_append hp]

theorem find_no_delimiter {c : α} {s : List α} (hc : c ∉ s) : find [c] s = none :=
  find_eq_none_iff.mpr fun h => hc (h.subset List.mem_cons_self)

/-- A part of a text is found in it, at or before the place where it stands. -/
theorem find_of_infix (before pat behind : List α) :
    ∃ i, find pat (before ++ pat ++ behind) = some i ∧ i ≤ before.length := by
  cases hf : find pat (before ++ pat ++ behind) with
  | none => exact absurd ⟨before, behind, rfl⟩ (find_eq_none_iff.mp hf)
  | some i =>
    obtain ⟨-, -, hfirst⟩ := find_eq_some_iff.mp hf
    refine ⟨i, rfl, Nat.le_of_not_lt fun hlt => hfirst before.length hlt ?_⟩
    rw [List.append_assoc, List.drop_left]
    exact List.prefix_append pat behind

/-- A part of a split text has no delimiter. -/
theorem not_mem_of_mem_splitOn {c : α} {s part : List α} (h : part ∈ s.splitOn c) : c ∉ part := by
  induction s generalizing part with
  | nil =>
    rw [List.splitOn_nil, List.mem_singleton] at h
    rw [h]
    exact List.not_mem_nil
  | cons a as ih =>
    rw [List.splitOn_cons_eq_if_modifyHead] at h
    by_cases ha : a = c
    · rw [if_pos (beq_iff_eq.mpr ha), List.mem_cons] at h
      rcases h with h | h
      · rw [h]
        exact List.not_mem_nil
      · exact ih h
    · obtain ⟨first, rest, hsplit⟩ := List.exists_cons_of_ne_nil (List.splitOn_ne_nil c as)
      rw [if_neg (fun e => ha (beq_iff_eq.mp e)), hsplit, List.modifyHead_cons, List.mem_cons] at h
      rcases h with h | h
      · have hfirst : c ∉ first := ih (hsplit ▸ List.mem_cons_self)
        rw [h, List.mem_cons, not_or]
        exact ⟨fun e => ha e.symm, hfirst⟩
      · exact ih (hsplit ▸ List.mem_cons_of_mem _ h)

end Find

/-- Joined parts: each behind the separator before it. -/
theorem intercalate_cons (sep t : Bytes) (ts : List Bytes) :
    sep.intercalate (t :: ts) = t ++ ts.flatMap (sep ++ ·) := by
  induction ts generalizing t with
  | nil => simp [List.intercalate]
  | cons u us ih =>
    rw [List.flatMap_cons, List.append_assoc, ← ih u]
    simp [List.intercalate]

/-! ## 3. Reading lines -/

/-- Carriage return. -/
abbrev CR : UInt8 := 13

/-- Line feed. -/
abbrev LF : UInt8 := 10

/-- The line end. -/
def crlf : Bytes := [CR, LF]

/-- Splits off the text before the first CRLF. -/
def readLine : Bytes → Option (Bytes × Bytes)
  | [] => none
  | [_] => none
  | a :: b :: rest =>
    if a = CR ∧ b = LF then some ([], rest)
    else (readLine (b :: rest)).map fun (line, after) => (a :: line, after)

/-- Reads lines up to the first empty one, at most `fuel` of them. -/
def readLines : Nat → Bytes → Option (List Bytes × Bytes)
  | 0, _ => none
  | fuel + 1, s =>
    match readLine s with
    | none => none
    | some ([], rest) => some ([], rest)
    | some (line, rest) => (readLines fuel rest).map fun (lines, after) => (line :: lines, after)

/-- Reads the lines of a section up to its first empty line: the lines, and what follows. -/
def readSection (s : Bytes) : Option (List Bytes × Bytes) := readLines (s.length + 1) s

/-- The lines of a section and the empty line behind them. -/
def sectionText (lines : List Bytes) : Bytes := lines.flatMap (· ++ crlf) ++ crlf

theorem readLine_append {line : Bytes} (h : CR ∉ line) (rest : Bytes) :
    readLine (line ++ crlf ++ rest) = some (line, rest) := by
  induction line with
  | nil => simp [crlf, readLine]
  | cons a as ih =>
    have ha : a ≠ CR := fun e => h (e ▸ List.mem_cons_self)
    have ih' := ih fun hm => h (List.mem_cons_of_mem _ hm)
    cases as with
    | nil =>
      simp only [List.nil_append] at ih'
      simp [crlf, readLine, ha]
    | cons b bs =>
      simp only [List.cons_append] at ih' ⊢
      rw [readLine, if_neg fun e => ha e.1, ih']
      rfl

theorem readLines_section {lines : List Bytes} (h : ∀ l ∈ lines, l ≠ [] ∧ CR ∉ l) (rest : Bytes)
    (fuel : Nat) (hfuel : lines.length < fuel) :
    readLines fuel (sectionText lines ++ rest) = some (lines, rest) := by
  induction lines generalizing fuel with
  | nil =>
    obtain ⟨f, rfl⟩ := Nat.exists_eq_succ_of_ne_zero (by omega : fuel ≠ 0)
    have hl := readLine_append (List.not_mem_nil : CR ∉ ([] : Bytes)) rest
    simp only [List.nil_append] at hl
    simp [sectionText, readLines, hl]
  | cons l ls ih =>
    obtain ⟨f, rfl⟩ := Nat.exists_eq_succ_of_ne_zero (by omega : fuel ≠ 0)
    obtain ⟨hne, hcr⟩ := h l List.mem_cons_self
    have e : sectionText (l :: ls) ++ rest = l ++ crlf ++ (sectionText ls ++ rest) := by
      simp [sectionText, List.append_assoc]
    have hl := readLine_append hcr (sectionText ls ++ rest)
    have hls := ih (fun x hx => h x (List.mem_cons_of_mem _ hx)) f
      (by simp only [List.length_cons] at hfuel; omega)
    rw [e, readLines, hl]
    cases l with
    | nil => exact absurd rfl hne
    | cons b bs =>
      simp only [hls]
      rfl

theorem length_le_sectionText (lines : List Bytes) : lines.length < (sectionText lines).length := by
  induction lines with
  | nil => simp [sectionText, crlf]
  | cons l ls ih =>
    simp only [sectionText, crlf, List.flatMap_cons, List.length_append, List.length_cons,
      List.length_nil] at ih ⊢
    omega

/-- **Lines written are the lines read**: non-empty lines without a carriage return, followed by
    an empty line and any text, are read back as exactly these lines and this text. -/
theorem readSection_lines {lines : List Bytes} (h : ∀ l ∈ lines, l ≠ [] ∧ CR ∉ l) (rest : Bytes) :
    readSection (sectionText lines ++ rest) = some (lines, rest) := by
  refine readLines_section h rest _ ?_
  have := length_le_sectionText lines
  rw [List.length_append]
  omega

end ByteText
