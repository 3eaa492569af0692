/-
  File:      BoostAsioWebServer/Services/RequestURIDecoding.lean
  Subject:   PERCENT DECODING: which targets `parse` takes, and what it makes of them.

  `Decodes esc uri out` is the encoding as a relation: every escape is one that `esc` allows, every
  other `+` is a space, every other byte is kept. Two readings of it are compared.

  * With `HexEscape` -- two hex digits -- it is the encoding a target is written in.
  * With `Escape` it is what the source decodes (`decode_eq_some_iff`): the formatted extraction
    also takes one digit and stops, or skips a space or takes a sign before one (`LooseEscape`).

  `parse` decodes exactly the percent encoding, if and only if the target is not taken through a
  loose escape (`decodesExactly_iff`). What it takes is an absolute path without `..`, and what it
  refuses it leaves alone (`parse_confines`).
-/
import BoostAsioWebServer.Services.RequestTarget

namespace BoostAsioWebServer

open ByteText

/-! ## 1. The encoding -/

/-- The decoded text of a target, where `esc x y b` allows the escape `%xy` of a byte `b`. -/
inductive Decodes (esc : UInt8 → UInt8 → UInt8 → Prop) : Bytes → Bytes → Prop where
  | nil : Decodes esc [] []
  | kept {b : UInt8} {uri out : Bytes} (hb : IsCopied b) (h : Decodes esc uri out) :
      Decodes esc (b :: uri) (b :: out)
  | plus {uri out : Bytes} (h : Decodes esc uri out) :
      Decodes esc (chr '+' :: uri) (chr ' ' :: out)
  | escape {x y b : UInt8} {uri out : Bytes} (he : esc x y b) (h : Decodes esc uri out) :
      Decodes esc (chr '%' :: x :: y :: uri) (b :: out)

/-- Two hex digits, and the byte they denote. -/
def HexEscape (x y b : UInt8) : Prop :=
  ∃ m n, hexDigit x = some m ∧ hexDigit y = some n ∧ b.toNat = m * 16 + n

/-- Two bytes that are no two hex digits, and the byte the formatted extraction makes of them. -/
inductive LooseEscape : UInt8 → UInt8 → UInt8 → Prop where
  /-- The extraction stops behind the first digit; `0x` is taken as a prefix without digits. -/
  | digit {x y b : UInt8} (hx : hexDigit x = some b.toNat) (hy : hexDigit y = none)
      (hzero : ¬ (x = chr '0' ∧ (y = chr 'x' ∨ y = chr 'X'))) : LooseEscape x y b
  | space {x y b : UInt8} (hx : isSpace x = true) (hy : hexDigit y = some b.toNat) :
      LooseEscape x y b
  | plus {y b : UInt8} (hy : hexDigit y = some b.toNat) : LooseEscape (chr '+') y b
  | minus {y b : UInt8} {n : Nat} (hy : hexDigit y = some n) (hb : b.toNat = (256 - n) % 256) :
      LooseEscape (chr '-') y b

/-- An escape the source takes. -/
def Escape (x y b : UInt8) : Prop := HexEscape x y b ∨ LooseEscape x y b

/-- The decoded text is an absolute path without `".."`, with a query behind it or not. -/
def IsTarget (out : Bytes) : Prop :=
  out ≠ [] ∧ out.head? = some (chr '/') ∧ ¬ ascii ".." <:+: textBefore (chr '?') out

/-- `parse` takes exactly the targets that decode to an absolute path without `".."`, and leaves
    that path as the URI. -/
def DecodesExactly (uri : Bytes) : Prop :=
  ∀ request : Request, request.uri = uri →
    ((RequestURIParserService.parse request).2 = true ↔
      ∃ out, Decodes HexEscape uri out ∧ IsTarget out) ∧
    ∀ out, Decodes HexEscape uri out → (RequestURIParserService.parse request).2 = true →
      (RequestURIParserService.parse request).1.uri = textBefore (chr '?') out

/-- A `%` of the target is not followed by two hex digits, and the target is taken. -/
def TakenLoosely (uri : Bytes) : Prop :=
  ∃ out, Decodes Escape uri out ∧ IsTarget out ∧ ¬ Decodes HexEscape uri out

/-! ## 2. What the extraction takes -/

theorem hexDigit_lt {x : UInt8} {m : Nat} (h : hexDigit x = some m) : m < 16 := by
  have hall : ∀ x : UInt8, ∀ m ∈ hexDigit x, m < 16 := by decide +kernel
  exact hall x m h

/-- A hex digit is no whitespace and no sign. -/
theorem hexDigit_plain {x : UInt8} (h : isSpace x = true ∨ x = chr '-' ∨ x = chr '+') :
    hexDigit x = none := by
  revert h
  revert x
  decide +kernel

theorem hexNumber_singleton (y : UInt8) : hexNumber [y] = hexDigit y := by
  cases hy : hexDigit y <;> simp [hexNumber, hy]

theorem hexNumber_pair (x y : UInt8) :
    hexNumber [x, y] = (hexDigit x).map fun m => ((hexDigit y).map (m * 16 + ·)).getD m := by
  cases hx : hexDigit x <;> cases hy : hexDigit y <;> simp [hexNumber, hx, hy]

/-- What the extraction makes of two bytes, by the class of the first one. -/
theorem extractHex_pair (x y : UInt8) :
    extractHex [x, y] =
      if isSpace x then (hexDigit y).map fun n : Nat => (n : Int)
      else if x = chr '-' then (hexDigit y).map fun n : Nat => -(n : Int)
      else if x = chr '+' then (hexDigit y).map fun n : Nat => (n : Int)
      else if x = chr '0' ∧ (y = chr 'x' ∨ y = chr 'X') then none
      else (hexNumber [x, y]).map fun n : Nat => (n : Int) := by
  by_cases hx : isSpace x = true
  · rw [if_pos hx, extractHex, List.dropWhile_cons_of_pos hx]
    by_cases hy : isSpace y = true
    · rw [List.dropWhile_cons_of_pos hy, hexDigit_plain (Or.inl hy)]
      rfl
    · rw [List.dropWhile_cons_of_neg hy]
      by_cases hminus : y = chr '-'
      · subst hminus
        rfl
      by_cases hplus : y = chr '+'
      · subst hplus
        rfl
      simp only [hminus, hplus, if_false, hexNumber_singleton]
  · rw [if_neg hx, extractHex, List.dropWhile_cons_of_neg hx]
    simp only [hexNumber_singleton]
    by_cases hzero : x = chr '0' ∧ (y = chr 'x' ∨ y = chr 'X')
    · rw [if_pos hzero, if_pos hzero]
      rfl
    · rw [if_neg hzero, if_neg hzero]

theorem toChar_eq_iff {v : Int} {b : UInt8} : toChar v = b ↔ (b.toNat : Int) = v % 256 := by
  have hlt : (v % 256).toNat < 256 := by omega
  rw [← UInt8.toNat_inj, toChar, UInt8.toNat_ofNat', Nat.mod_eq_of_lt hlt]
  omega

/-- A number below 256 is extracted as the byte it denotes. -/
theorem toChar_natCast {n : Nat} {b : UInt8} (hn : n < 256) : toChar (n : Int) = b ↔ b.toNat = n := by
  rw [toChar_eq_iff]
  omega

/-- The cases of the extraction, by the class of the first byte. -/
theorem escape_of_extractHex {x y b : UInt8} {v : Int} (hv : extractHex [x, y] = some v)
    (hb : toChar v = b) : Escape x y b := by
  rw [extractHex_pair] at hv
  split_ifs at hv with hspace hminus hplus hzero
  · obtain ⟨n, hn, rfl⟩ := Option.map_eq_some_iff.mp hv
    rw [toChar_natCast (by have := hexDigit_lt hn; omega)] at hb
    exact Or.inr (.space hspace (by rw [hb]; exact hn))
  · obtain ⟨n, hn, rfl⟩ := Option.map_eq_some_iff.mp hv
    subst hminus
    have := hexDigit_lt hn
    rw [toChar_eq_iff] at hb
    exact Or.inr (.minus hn (by omega))
  · obtain ⟨n, hn, rfl⟩ := Option.map_eq_some_iff.mp hv
    subst hplus
    rw [toChar_natCast (by have := hexDigit_lt hn; omega)] at hb
    exact Or.inr (.plus (by rw [hb]; exact hn))
  · obtain ⟨k, hk, rfl⟩ := Option.map_eq_some_iff.mp hv
    rw [hexNumber_pair] at hk
    obtain ⟨m, hm, hmk⟩ := Option.map_eq_some_iff.mp hk
    have hm16 := hexDigit_lt hm
    cases hy : hexDigit y with
    | none =>
      rw [hy] at hmk
      obtain rfl : m = k := hmk
      rw [toChar_natCast (by omega)] at hb
      exact Or.inr (.digit (by rw [hb]; exact hm) hy hzero)
    | some n =>
      have hn16 := hexDigit_lt hy
      rw [hy] at hmk
      obtain rfl : m * 16 + n = k := hmk
      rw [toChar_natCast (by omega)] at hb
      exact Or.inl ⟨m, n, hm, hy, hb⟩

/-- A loose escape is extracted. -/
theorem LooseEscape.extractHex {x y b : UInt8} (h : LooseEscape x y b) :
    ∃ v, extractHex [x, y] = some v ∧ toChar v = b := by
  rw [extractHex_pair]
  cases h with
  | digit hx hy hzero =>
    have hplain : ¬ (isSpace x = true ∨ x = chr '-' ∨ x = chr '+') := fun h => by
      rw [hexDigit_plain h] at hx
      cases hx
    rw [not_or, not_or] at hplain
    refine ⟨_, ?_, toChar_byte b⟩
    rw [if_neg hplain.1, if_neg hplain.2.1, if_neg hplain.2.2, if_neg hzero, hexNumber_pair, hx,
      hy]
    rfl
  | space hx hy =>
    refine ⟨_, ?_, toChar_byte b⟩
    rw [if_pos hx, hy]
    rfl
  | plus hy =>
    refine ⟨_, ?_, toChar_byte b⟩
    rw [if_neg (by decide), if_neg (by decide), if_pos rfl, hy]
    rfl
  | @minus _ _ n hy hb =>
    have hn := hexDigit_lt hy
    refine ⟨-(n : Int), ?_, toChar_eq_iff.mpr (by omega)⟩
    rw [if_neg (by decide), if_pos rfl, hy]
    rfl

/-- **The extraction takes two hex digits, or a loose escape.** -/
theorem extractHex_iff (x y b : UInt8) :
    (∃ v, extractHex [x, y] = some v ∧ toChar v = b) ↔ Escape x y b := by
  constructor
  · intro h
    obtain ⟨v, hv, hb⟩ := h
    exact escape_of_extractHex hv hb
  · intro h
    rcases h with ⟨m, n, hm, hn, hb⟩ | hloose
    · exact ⟨_, extractHex_digits hm hn, hb ▸ toChar_byte b⟩
    · exact hloose.extractHex

/-! ## 3. What the loop takes -/

/-- **The loop decodes the encoding with the escapes the extraction takes.** -/
theorem decode_eq_some_iff {uri out : Bytes} : decode uri = some out ↔ Decodes Escape uri out := by
  constructor
  · intro h
    fun_induction decode uri generalizing out with
    | case1 =>
      cases h
      exact .nil
    | case2 x y rest v hv ih =>
      obtain ⟨tail, htail, rfl⟩ := Option.map_eq_some_iff.mp h
      exact .escape ((extractHex_iff x y _).mp ⟨v, hv, rfl⟩) (ih htail)
    | case3 => cases h
    | case4 => cases h
    | case5 rest _ ih =>
      obtain ⟨tail, htail, rfl⟩ := Option.map_eq_some_iff.mp h
      exact .plus (ih htail)
    | case6 b rest hpercent hplus ih =>
      obtain ⟨tail, htail, rfl⟩ := Option.map_eq_some_iff.mp h
      exact .kept ⟨hpercent, hplus⟩ (ih htail)
  · intro h
    induction h with
    | nil => rfl
    | kept hb _ ih => rw [decode_copied hb, ih, Option.map_some]
    | plus _ ih =>
      rw [decode.eq_def]
      simp only [show chr '+' ≠ chr '%' by decide, if_false, if_true, ih, Option.map_some]
    | @escape x y b uri out he _ ih =>
      obtain ⟨v, hv, rfl⟩ := (extractHex_iff x y b).mpr he
      simp only [decode, if_true, hv, ih, Option.map_some]

/-- What two hex digits decode, the loop decodes. -/
theorem decode_of_hex {uri out : Bytes} (h : Decodes HexEscape uri out) : decode uri = some out := by
  rw [decode_eq_some_iff]
  induction h with
  | nil => exact .nil
  | kept hb _ ih => exact .kept hb ih
  | plus _ ih => exact .plus ih
  | escape he _ ih => exact .escape (Or.inl he) ih

/-- The test for `".."` looks at the text before the first `?`. -/
theorem climbs_iff (out : Bytes) :
    climbs out = true ↔ ascii ".." <:+: textBefore (chr '?') out := by
  have hdots : chr '?' ∉ ascii ".." := by decide
  by_cases hquery : chr '?' ∈ out
  · obtain ⟨rest, hout⟩ := eq_textBefore_append hquery
    have hq : find (ascii "?") out = some (textBefore (chr '?') out).length := find_delimiter hquery
    constructor
    · intro h
      unfold climbs at h
      cases hf : find (ascii "..") out with
      | none =>
        rw [hf] at h
        cases h
      | some i =>
        rw [hf, hq] at h
        by_contra hno
        rw [hout] at hf
        have hlt := lt_of_find_append_cons hdots hno hf
        have hgt : (textBefore (chr '?') out).length > i := of_decide_eq_true h
        omega
    · intro h
      obtain ⟨before, behind, hpath⟩ := h
      obtain ⟨i, hi, hle⟩ := find_of_infix before (ascii "..") (behind ++ chr '?' :: rest)
      have hfind : find (ascii "..") out = some i := by
        rw [hout, ← hpath, List.append_assoc]
        exact hi
      have hlen := congrArg List.length hpath
      rw [List.length_append, List.length_append, show (ascii "..").length = 2 from rfl] at hlen
      simp only [climbs, hfind, hq]
      exact decide_eq_true (by omega)
  · have hq : find (ascii "?") out = none := find_no_delimiter hquery
    rw [textBefore_of_not_mem hquery, climbs, hq]
    cases hf : find (ascii "..") out with
    | none => exact iff_of_false Bool.false_ne_true (find_eq_none_iff.mp hf)
    | some i =>
      refine iff_of_true rfl ?_
      by_contra hno
      rw [find_eq_none_iff.mpr hno] at hf
      cases hf

/-- An accepted target, in terms of the encoding. -/
theorem acceptedTarget_iff (uri out : Bytes) :
    AcceptedTarget uri out ↔ Decodes Escape uri out ∧ IsTarget out := by
  rw [AcceptedTarget, decode_eq_some_iff, IsTarget, ← climbs_iff, Bool.not_eq_true]
  constructor
  · intro h
    obtain ⟨hdec, hclimbs, hhead⟩ := h
    refine ⟨hdec, fun e => ?_, hhead, hclimbs⟩
    rw [e] at hhead
    cases hhead
  · intro h
    obtain ⟨hdec, -, hhead, hclimbs⟩ := h
    exact ⟨hdec, hclimbs, hhead⟩

/-- The split leaves the text before the first `?` as the URI. -/
theorem parseQueryString_textBefore (request : Request) :
    (parseQueryString request).uri = textBefore (chr '?') request.uri := by
  by_cases hquery : chr '?' ∈ request.uri
  · obtain ⟨rest, huri⟩ := eq_textBefore_append hquery
    have hq : find (ascii "?") request.uri = some (textBefore (chr '?') request.uri).length :=
      find_delimiter hquery
    have htake : request.uri.take (textBefore (chr '?') request.uri).length =
        textBefore (chr '?') request.uri :=
      List.prefix_iff_eq_take.mp ⟨_, huri.symm⟩ |>.symm
    simp only [parseQueryString, hq, htake]
  · have hq : find (ascii "?") request.uri = none := find_no_delimiter hquery
    simp only [parseQueryString, hq, textBefore_of_not_mem hquery]

/-! ## 4. The theorems -/

/-- **Decoding is exact if and only if the target is not taken through a loose escape.** -/
theorem decodesExactly_iff (uri : Bytes) : DecodesExactly uri ↔ ¬ TakenLoosely uri := by
  constructor
  · intro hexact h
    obtain ⟨out, hdec, htarget, hhex⟩ := h
    obtain ⟨hverdict, -⟩ := hexact { uri := uri } rfl
    have htrue : (RequestURIParserService.parse { uri := uri }).2 = true :=
      (parse_true_iff _).mpr ⟨out, (acceptedTarget_iff uri out).mpr ⟨hdec, htarget⟩⟩
    obtain ⟨out', hdec', -⟩ := hverdict.mp htrue
    -- the loop has one result, so the strict reading is the loose one
    have hout := decode_of_hex hdec'
    rw [decode_eq_some_iff.mpr hdec] at hout
    cases hout
    exact hhex hdec'
  · intro hloose request huri
    subst huri
    rcases parse_cases request with ⟨out, haccepted, hparse⟩ | ⟨hno, hparse⟩
    · obtain ⟨hdec, htarget⟩ := (acceptedTarget_iff _ out).mp haccepted
      have hhex : Decodes HexEscape request.uri out := by
        by_contra hhex
        exact hloose ⟨out, hdec, htarget, hhex⟩
      rw [hparse]
      refine ⟨iff_of_true rfl ⟨out, hhex, htarget⟩, fun out' hdec' _ => ?_⟩
      have hout := decode_of_hex hdec'
      rw [haccepted.1] at hout
      cases hout
      exact parseQueryString_textBefore _
    · rw [hparse]
      refine ⟨iff_of_false Bool.false_ne_true ?_, fun _ _ e => absurd e Bool.false_ne_true⟩
      intro h
      obtain ⟨out, hhex, htarget⟩ := h
      have hdec := decode_eq_some_iff.mp (decode_of_hex hhex)
      exact hno out ((acceptedTarget_iff _ out).mpr ⟨hdec, htarget⟩)

/-- A target with one digit behind its `%`. -/
def oneDigitTarget : Bytes := [chr '/', chr 'a', chr '%', chr '2', chr 'G']

/-- One digit and a `G` are taken for an escape, where two digits are asked for. -/
theorem decodesExactly_oneDigit_fails :
    RequestURIParserService.parse { uri := oneDigitTarget } =
        ({ uri := ascii "/a" ++ [2] }, true) ∧
      ¬ DecodesExactly oneDigitTarget := by
  have hparse : RequestURIParserService.parse { uri := oneDigitTarget } =
      ({ uri := ascii "/a" ++ [2] }, true) := by decide +kernel
  refine ⟨hparse, fun hexact => ?_⟩
  obtain ⟨hverdict, -⟩ := hexact { uri := oneDigitTarget } rfl
  rw [hparse] at hverdict
  obtain ⟨out, hdec, -⟩ := hverdict.mp rfl
  have hG : hexDigit (chr 'G') = none := by decide
  cases hdec with
  | kept _ hdec =>
    cases hdec with
    | kept _ hdec =>
      cases hdec with
      | kept hb _ => exact hb.1 rfl
      | escape he _ =>
        obtain ⟨m, n, -, hn, -⟩ := he
        rw [hG] at hn
        cases hn

/-- **Path traversal is blocked, and a refusal changes nothing.** -/
theorem parse_confines (request : Request) :
    ((RequestURIParserService.parse request).2 = true →
      (RequestURIParserService.parse request).1.uri.head? = some (chr '/') ∧
        ¬ ascii ".." <:+: (RequestURIParserService.parse request).1.uri ∧
        chr '?' ∉ (RequestURIParserService.parse request).1.uri) ∧
    ((RequestURIParserService.parse request).2 = false →
      (RequestURIParserService.parse request).1 = request) := by
  refine ⟨fun htrue => ?_, parse_refused⟩
  rcases parse_cases request with ⟨out, haccepted, hparse⟩ | ⟨-, hparse⟩
  · obtain ⟨-, hne, hhead, hdots⟩ := (acceptedTarget_iff _ out).mp haccepted
    rw [hparse]
    have huri := parseQueryString_textBefore { request with uri := out }
    refine ⟨?_, by rw [huri]; exact hdots, by rw [huri]; exact not_mem_textBefore _ out⟩
    -- the path keeps its first byte, which is no `?`
    rw [huri]
    cases out with
    | nil => exact absurd rfl hne
    | cons b bs =>
      cases hhead
      rw [textBefore, List.takeWhile_cons_of_pos (by decide)]
      rfl
  · rw [hparse] at htrue
    cases htrue

/-- An escaped `?` ends the path, and an escaped dot is one of two. -/
theorem parse_confines_escaped :
    RequestURIParserService.parse { uri := ascii "/a%3Fb" } = ({ uri := ascii "/a" }, true) ∧
      chr '?' ∉ (RequestURIParserService.parse { uri := ascii "/a%3Fb" }).1.uri ∧
      RequestURIParserService.parse { uri := ascii "/%2e." } = ({ uri := ascii "/%2e." }, false) := by
  have haccepted : RequestURIParserService.parse { uri := ascii "/a%3Fb" } =
      ({ uri := ascii "/a" }, true) := by decide +kernel
  have hrefused : (RequestURIParserService.parse { uri := ascii "/%2e." }).2 = false := by
    decide +kernel
  obtain ⟨-, -, hquery⟩ := (parse_confines { uri := ascii "/a%3Fb" }).1 (by rw [haccepted])
  exact ⟨haccepted, hquery, Prod.ext ((parse_confines { uri := ascii "/%2e." }).2 hrefused) hrefused⟩

end BoostAsioWebServer
