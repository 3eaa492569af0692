/-
  File:      BoostAsioWebServer/Services/RequestTarget.lean
  Subject:   REQUEST TARGETS AS A CLIENT WRITES THEM, and what `parse` reads back.

  A client has a path and query pairs. `TargetText` relates them to the target it sends: the path
  with every byte but the unreserved ones and `/` escaped, `?`, and the pairs `name=value` joined
  by `&`, every byte of a value escaped unless unreserved. Either case of a hex digit may be used.

  * `decode_targetText`: decoding takes every escape away, and with it the difference between a
    delimiter and an escaped delimiter;
  * `queryItems_pairs`: the split of the decoded text gives the pairs back where no value has `&`;
  * `targetSurvives_iff`: the round trip holds exactly for a path without `?`, values without `&`
    and names that are not empty.
-/
import BoostAsioWebServer.Services.RequestURIParserService
import Mathlib.Data.FinEnum

namespace BoostAsioWebServer

open ByteText GreedyPattern

/-! ## 1. The text of a target -/

/-- An unreserved character of a URI: a letter, a digit, `-`, `.`, `_` or `~`. -/
def IsUnreserved (b : UInt8) : Prop := isWord b = true ∨ b ∈ ascii "-.~"

/-- A byte a path holds unescaped. -/
def IsPathByte (b : UInt8) : Prop := IsUnreserved b ∨ b = chr '/'

instance (b : UInt8) : Decidable (IsUnreserved b) := inferInstanceAs (Decidable (_ ∨ _))
instance (b : UInt8) : Decidable (IsPathByte b) := inferInstanceAs (Decidable (_ ∨ _))

/-- `text` is `raw` with every byte that is not plain written as `%` and two hex digits. -/
inductive Escapes (plain : UInt8 → Prop) : Bytes → Bytes → Prop where
  | nil : Escapes plain [] []
  | kept {b : UInt8} {raw text : Bytes} (hb : plain b) (h : Escapes plain raw text) :
      Escapes plain (b :: raw) (b :: text)
  | escaped {b x y : UInt8} {m n : Nat} {raw text : Bytes} (hb : ¬ plain b)
      (hx : hexDigit x = some m) (hy : hexDigit y = some n) (hmn : b.toNat = m * 16 + n)
      (h : Escapes plain raw text) : Escapes plain (b :: raw) (chr '%' :: x :: y :: text)

/-- The text `name=value` of a query pair. -/
def PairText (pair : Bytes × Bytes) (text : Bytes) : Prop :=
  ∃ value, Escapes IsUnreserved pair.2 value ∧ text = pair.1 ++ ascii "=" ++ value

/-- The target a client sends for a path and query pairs. -/
def TargetText (p : Bytes) (pairs : List (Bytes × Bytes)) (uri : Bytes) : Prop :=
  ∃ path texts, Escapes IsPathByte p path ∧ List.Forall₂ PairText pairs texts ∧
    uri = path ++ if pairs = [] then [] else ascii "?" ++ (ascii "&").intercalate texts

/-- The round trip: the target is accepted, the path is the URI and the pairs are the items. -/
def TargetSurvives (p : Bytes) (pairs : List (Bytes × Bytes)) (uri : Bytes) : Prop :=
  ∀ request : Request, request.uri = uri →
    RequestURIParserService.parse request =
      ({ request with uri := p, queryStrings := request.queryStrings ++ pairs }, true)

/-! ## 2. Decoding takes the escapes away -/

/-- A byte the decoder copies. -/
def IsCopied (b : UInt8) : Prop := b ≠ chr '%' ∧ b ≠ chr '+'

instance (b : UInt8) : Decidable (IsCopied b) := inferInstanceAs (Decidable (_ ∧ _))

theorem IsPathByte.copied {b : UInt8} (h : IsPathByte b) : IsCopied b := by
  revert h
  revert b
  decide +kernel

theorem isCopied_of_isWord {b : UInt8} (h : isWord b = true) : IsCopied b :=
  IsPathByte.copied (Or.inl (Or.inl h))

theorem decode_copied {b : UInt8} (h : IsCopied b) (rest : Bytes) :
    decode (b :: rest) = (decode rest).map (b :: ·) := by
  rw [decode.eq_def]
  simp only [h.1, h.2, if_false]

/-- Two hex digits are extracted as their number. -/
theorem extractHex_digits {x y : UInt8} {m n : Nat} (hx : hexDigit x = some m)
    (hy : hexDigit y = some n) : extractHex [x, y] = some ((m * 16 + n : Nat) : Int) := by
  have hx' : isSpace x = false ∧ x ≠ chr '-' ∧ x ≠ chr '+' := by
    have h : ∀ b : UInt8, (hexDigit b).isSome = true →
        isSpace b = false ∧ b ≠ chr '-' ∧ b ≠ chr '+' := by decide +kernel
    exact h x (by rw [hx]; rfl)
  have hy' : ¬ (y = chr 'x' ∨ y = chr 'X') := by
    have h : ∀ b : UInt8, (hexDigit b).isSome = true → ¬ (b = chr 'x' ∨ b = chr 'X') := by
      decide +kernel
    exact h y (by rw [hy]; rfl)
  have hnumber : hexNumber [x, y] = some (m * 16 + n) := by
    simp [hexNumber, hx, hy]
  rw [extractHex, List.dropWhile_cons_of_neg (by simp [hx'.1])]
  simp only [hx'.2.1, hx'.2.2, hy', if_false, and_false, hnumber, Option.map_some]

theorem toChar_byte (b : UInt8) : toChar (b.toNat : Int) = b := by
  revert b
  decide +kernel

/-- Escaped bytes decode to the bytes they escape. -/
theorem decode_escapes {plain : UInt8 → Prop} (hplain : ∀ b, plain b → IsCopied b)
    {raw text : Bytes} (h : Escapes plain raw text) (rest : Bytes) :
    decode (text ++ rest) = (decode rest).map (raw ++ ·) := by
  induction h with
  | nil => simp
  | @kept b raw text hb _ ih =>
    rw [List.cons_append, decode_copied (hplain b hb), ih, Option.map_map]
    rfl
  | @escaped b x y m n raw text _ hx hy hmn _ ih =>
    have hextract := extractHex_digits hx hy
    rw [← hmn] at hextract
    simp only [List.cons_append, decode, if_true, hextract, toChar_byte, ih, Option.map_map]
    rfl

theorem decode_copy {text : Bytes} (h : ∀ b ∈ text, IsCopied b) (rest : Bytes) :
    decode (text ++ rest) = (decode rest).map (text ++ ·) := by
  induction text with
  | nil => simp
  | cons b bs ih =>
    rw [List.cons_append, decode_copied (h b List.mem_cons_self),
      ih fun c hc => h c (List.mem_cons_of_mem _ hc), Option.map_map]
    rfl

/-- The pair as the decoder leaves it. -/
def plainPair (pair : Bytes × Bytes) : Bytes := pair.1 ++ ascii "=" ++ pair.2

/-- The query as the decoder leaves it: each pair behind the delimiter before it. -/
def plainPairs (pairs : List (Bytes × Bytes)) : Bytes :=
  pairs.flatMap fun pair => ascii "&" ++ plainPair pair

/-- The target as the decoder leaves it. -/
def plainTarget (p : Bytes) : List (Bytes × Bytes) → Bytes
  | [] => p
  | pair :: pairs => p ++ ascii "?" ++ plainPair pair ++ plainPairs pairs

theorem decode_pairText {pair : Bytes × Bytes} {text : Bytes} (h : PairText pair text)
    (hname : ∀ b ∈ pair.1, isWord b = true) (rest : Bytes) :
    decode (text ++ rest) = (decode rest).map (plainPair pair ++ ·) := by
  obtain ⟨value, hvalue, rfl⟩ := h
  have hplain : ∀ b, IsUnreserved b → IsCopied b := fun b hb => IsPathByte.copied (Or.inl hb)
  have heq : ∀ b ∈ ascii "=", IsCopied b := fun b hb => by
    rw [show b = chr '=' from List.mem_singleton.mp hb]
    decide
  rw [List.append_assoc, List.append_assoc, decode_copy fun b hb => isCopied_of_isWord (hname b hb),
    decode_copy heq, decode_escapes hplain hvalue, Option.map_map, Option.map_map]
  simp only [plainPair, List.append_assoc]
  rfl

theorem decode_pairTexts {pairs : List (Bytes × Bytes)} {texts : List Bytes}
    (h : List.Forall₂ PairText pairs texts)
    (hnames : ∀ pair ∈ pairs, ∀ b ∈ pair.1, isWord b = true) :
    decode (texts.flatMap (ascii "&" ++ ·)) = some (plainPairs pairs) := by
  induction h with
  | nil => rfl
  | @cons pair text pairs texts hpair _ ih =>
    have hamp : IsCopied (chr '&') := by decide
    have hrest := ih fun q hq => hnames q (List.mem_cons_of_mem _ hq)
    rw [List.flatMap_cons, List.append_assoc]
    show decode (chr '&' :: (text ++ _)) = _
    rw [decode_copied hamp, decode_pairText hpair (hnames pair List.mem_cons_self), hrest]
    simp [plainPairs, ascii]

/-- **Decoding takes every escape away.** -/
theorem decode_targetText {p uri : Bytes} {pairs : List (Bytes × Bytes)}
    (h : TargetText p pairs uri) (hnames : ∀ pair ∈ pairs, ∀ b ∈ pair.1, isWord b = true) :
    decode uri = some (plainTarget p pairs) := by
  obtain ⟨path, texts, hpath, hpairs, rfl⟩ := h
  rw [decode_escapes (fun _ => IsPathByte.copied) hpath]
  cases hpairs with
  | nil => simp [decode, plainTarget]
  | @cons pair text pairs texts hpair hrest =>
    have hquery : IsCopied (chr '?') := by decide
    have htail := decode_pairTexts hrest fun q hq => hnames q (List.mem_cons_of_mem _ hq)
    rw [if_neg (List.cons_ne_nil pair pairs), intercalate_cons]
    show (decode (chr '?' :: (text ++ _))).map _ = _
    rw [decode_copied hquery, decode_pairText hpair (hnames pair List.mem_cons_self), htail]
    simp [plainTarget, ascii]

/-! ## 3. The split gives the pairs back -/

/-- A pair the pattern matches as it was written. -/
def Splittable (pair : Bytes × Bytes) : Prop := pair.1 ≠ [] ∧ chr '&' ∉ pair.2

theorem isNameByte_of_isWord {b : UInt8} (h : isWord b = true) : isNameByte b = true := by
  simp [isNameByte, h]

/-- Behind a delimiter the pattern matches one pair, up to the next delimiter. -/
theorem search_pair {c : UInt8} {pair : Bytes × Bytes} {tail : Bytes} (hc : isNameByte c = false)
    (hname : ∀ b ∈ pair.1, isWord b = true) (hpair : Splittable pair)
    (htail : ∀ a ∈ tail.head?, a = chr '&') :
    search queryPattern (c :: (plainPair pair ++ tail)) = some ([pair.1, pair.2], tail) := by
  obtain ⟨name, value⟩ := pair
  have hskip : matchPieces queryPattern (c :: (plainPair (name, value) ++ tail)) = none := by
    refine matchPieces_none rfl fun a ha => ?_
    rw [← Option.some.inj ha]
    exact hc
  have hvalue : matchPieces [⟨fun b => b ≠ chr '&', .star, true⟩] (value ++ tail) =
      some ([value], tail) := by
    refine matchPieces_run ⟨fun a ha => ?_, fun a ha => ?_⟩ (Nat.zero_le _) rfl rfl
    · have hne : a ≠ chr '&' := fun e => hpair.2 (e ▸ ha)
      exact decide_eq_true hne
    · rw [htail a ha]
      rfl
  have heq : matchPieces (queryPattern.drop 1) (chr '=' :: (value ++ tail)) =
      some ([value], tail) := matchPieces_once rfl (by decide) hvalue
  have hmatch : matchPieces queryPattern (name ++ chr '=' :: (value ++ tail)) =
      some ([name, value], tail) := by
    refine matchPieces_run ⟨fun a ha => isNameByte_of_isWord (hname a ha), fun a ha => ?_⟩
      (List.length_pos_iff.mpr hpair.1) rfl heq
    rw [← Option.some.inj ha]
    decide
  have htext : plainPair (name, value) ++ tail = name ++ chr '=' :: (value ++ tail) := by
    simp [plainPair, ascii]
  rw [search_skip hskip, htext]
  cases name with
  | nil => exact absurd rfl hpair.1
  | cons b bs => exact search_here hmatch

theorem plainPairs_head (pairs : List (Bytes × Bytes)) :
    ∀ a ∈ (plainPairs pairs).head?, a = chr '&' := by
  cases pairs with
  | nil => simp [plainPairs]
  | cons pair pairs =>
    intro a ha
    exact (Option.some.inj ha).symm

/-- The iterator finds the pairs behind a delimiter one by one. -/
theorem findAllFuel_pairs {c : UInt8} {pair : Bytes × Bytes} {pairs : List (Bytes × Bytes)}
    (hc : isNameByte c = false)
    (hnames : ∀ q ∈ pair :: pairs, ∀ b ∈ q.1, isWord b = true)
    (hsplit : ∀ q ∈ pair :: pairs, Splittable q) (fuel : Nat) (hfuel : pairs.length + 1 < fuel) :
    findAllFuel queryPattern fuel (c :: (plainPair pair ++ plainPairs pairs)) =
      (pair :: pairs).map fun q => [q.1, q.2] := by
  induction pairs generalizing c pair fuel with
  | nil =>
    obtain ⟨f, rfl⟩ := Nat.exists_eq_succ_of_ne_zero (by omega : fuel ≠ 0)
    obtain ⟨g, rfl⟩ := Nat.exists_eq_succ_of_ne_zero
      (by simp only [List.length_nil] at hfuel; omega : f ≠ 0)
    have hone := search_pair hc (hnames pair List.mem_cons_self) (hsplit pair List.mem_cons_self)
      (plainPairs_head [])
    have hend : findAllFuel queryPattern (g + 1) (plainPairs []) = [] := rfl
    simp only [findAllFuel, hone]
    rw [List.map_cons, ← hend]
    rfl
  | cons next pairs ih =>
    obtain ⟨f, rfl⟩ := Nat.exists_eq_succ_of_ne_zero (by omega : fuel ≠ 0)
    have hone := search_pair hc (hnames pair List.mem_cons_self) (hsplit pair List.mem_cons_self)
      (plainPairs_head (next :: pairs))
    have hamp : isNameByte (chr '&') = false := by decide
    have hrest := ih hamp (fun q hq => hnames q (List.mem_cons_of_mem _ hq))
      (fun q hq => hsplit q (List.mem_cons_of_mem _ hq)) f
      (by simp only [List.length_cons] at hfuel; omega)
    have htext : plainPairs (next :: pairs) = chr '&' :: (plainPair next ++ plainPairs pairs) := by
      simp [plainPairs, ascii]
    rw [htext] at hone ⊢
    simp only [findAllFuel, hone]
    rw [hrest]
    rfl

theorem length_le_plainPairs (pairs : List (Bytes × Bytes)) :
    pairs.length ≤ (plainPairs pairs).length := by
  induction pairs with
  | nil => exact Nat.zero_le _
  | cons pair pairs ih =>
    simp only [plainPairs, List.flatMap_cons, List.length_append, List.length_cons, ascii] at ih ⊢
    have : ("&".toList.map chr).length = 1 := rfl
    omega

/-- **The split gives the pairs back** where no value has `&` and no name is empty. -/
theorem queryItems_pairs {pair : Bytes × Bytes} {pairs : List (Bytes × Bytes)}
    (hnames : ∀ q ∈ pair :: pairs, ∀ b ∈ q.1, isWord b = true)
    (hsplit : ∀ q ∈ pair :: pairs, Splittable q) :
    queryItems (chr '?' :: (plainPair pair ++ plainPairs pairs)) = pair :: pairs := by
  have hquery : isNameByte (chr '?') = false := by decide
  have hlen := length_le_plainPairs pairs
  have hall := findAllFuel_pairs hquery hnames hsplit
    ((chr '?' :: (plainPair pair ++ plainPairs pairs)).length + 1)
    (by simp only [List.length_cons, List.length_append]; omega)
  rw [queryItems, findAll, hall, List.map_map]
  exact List.map_id _

/-! ## 4. The round trip -/

/-- The paths and pairs a client may have. -/
structure ClientTarget (p : Bytes) (pairs : List (Bytes × Bytes)) : Prop where
  absolute : p.head? = some (chr '/')
  noDotDot : ¬ ascii ".." <:+: p
  names : ∀ pair ∈ pairs, ∀ b ∈ pair.1, isWord b = true

/-- Behind the path stand a `?` and the pairs. -/
theorem plainTarget_cons (p : Bytes) (pair : Bytes × Bytes) (pairs : List (Bytes × Bytes)) :
    plainTarget p (pair :: pairs) = p ++ chr '?' :: (plainPair pair ++ plainPairs pairs) := by
  simp [plainTarget, ascii]

/-- A plain target whose path has no `?` does not climb. -/
theorem climbs_plainTarget {p : Bytes} {pairs : List (Bytes × Bytes)}
    (h : ClientTarget p pairs) (hquery : chr '?' ∉ p) : climbs (plainTarget p pairs) = false := by
  cases pairs with
  | nil =>
    have hnone : find (ascii "..") (plainTarget p []) = none := find_eq_none_iff.mpr h.noDotDot
    rw [climbs, hnone]
  | cons pair pairs =>
    rw [climbs, plainTarget_cons]
    cases hf : find (ascii "..") (p ++ chr '?' :: (plainPair pair ++ plainPairs pairs)) with
    | none => rfl
    | some posDotDot =>
      have hpos := lt_of_find_append_cons (by decide : chr '?' ∉ ascii "..") h.noDotDot hf
      have hfirst : find (ascii "?") (p ++ chr '?' :: (plainPair pair ++ plainPairs pairs)) =
          some p.length := find_cons_append hquery _
      simp only [hfirst]
      exact decide_eq_false (by omega)

/-- A plain target whose path has no `?` is split into the path and the pairs. -/
theorem parseQueryString_plainTarget {p : Bytes} {pairs : List (Bytes × Bytes)}
    (h : ClientTarget p pairs) (hquery : chr '?' ∉ p) (hsplit : ∀ pair ∈ pairs, Splittable pair)
    (request : Request) :
    parseQueryString { request with uri := plainTarget p pairs } =
      { request with uri := p, queryStrings := request.queryStrings ++ pairs } := by
  cases pairs with
  | nil =>
    have hnone : find (ascii "?") (plainTarget p []) = none := by
      refine find_eq_none_iff.mpr fun hinfix => hquery ?_
      exact hinfix.subset List.mem_cons_self
    rw [parseQueryString, hnone, List.append_nil]
    rfl
  | cons pair pairs =>
    have hfirst : find (ascii "?") (p ++ chr '?' :: (plainPair pair ++ plainPairs pairs)) =
        some p.length := find_cons_append hquery _
    rw [parseQueryString, plainTarget_cons]
    simp only [hfirst, List.take_left, List.drop_left, queryItems_pairs h.names hsplit]

/-- What `parse` makes of a target whose path has a `?`, or with a pair the pattern does not
    match, is not what the client meant. -/
theorem parseQueryString_changes {p : Bytes} {pairs : List (Bytes × Bytes)} {request r : Request}
    (h : parseQueryString r =
      { request with uri := p, queryStrings := request.queryStrings ++ pairs })
    (hr : r.queryStrings = request.queryStrings) :
    chr '?' ∉ p ∧ ∀ pair ∈ pairs, Splittable pair := by
  constructor
  · have hno := parseQueryString_uri r
    rwa [h] at hno
  · intro pair hpair
    have hqueries : (parseQueryString r).queryStrings = request.queryStrings ++ pairs := by rw [h]
    unfold parseQueryString at hqueries
    split at hqueries
    · rw [hr] at hqueries
      have hnil : pairs = [] := List.self_eq_append_right.mp hqueries
      rw [hnil] at hpair
      cases hpair
    · rw [hr] at hqueries
      have hitems := List.append_cancel_left hqueries
      obtain ⟨hne, -, hamp⟩ := mem_queryItems (hitems ▸ hpair)
      exact ⟨hne, hamp⟩

/-- **A target survives encoding if and only if** its path has no `?`, no value has `&`, and no
    name is empty. -/
theorem targetSurvives_iff {p uri : Bytes} {pairs : List (Bytes × Bytes)}
    (h : ClientTarget p pairs) (huri : TargetText p pairs uri) :
    TargetSurvives p pairs uri ↔ chr '?' ∉ p ∧ ∀ pair ∈ pairs, pair.1 ≠ [] ∧ chr '&' ∉ pair.2 := by
  have hdecode := decode_targetText huri h.names
  constructor
  · intro hsurvives
    have hparse := hsurvives { uri := uri } rfl
    rcases parse_cases { uri := uri } with ⟨out, -, hout⟩ | ⟨-, hrefused⟩
    · rw [hout] at hparse
      exact parseQueryString_changes (Prod.mk.inj hparse).1 rfl
    · rw [hrefused] at hparse
      cases (Prod.mk.inj hparse).2
  · rintro ⟨hquery, hsplit⟩ request rfl
    have hhead : (plainTarget p pairs).head? = some (chr '/') := by
      cases pairs with
      | nil => exact h.absolute
      | cons pair pairs =>
        obtain ⟨rest, hp⟩ := List.head?_eq_some_iff.mp h.absolute
        rw [hp]
        rfl
    have haccepted : AcceptedTarget request.uri (plainTarget p pairs) :=
      ⟨hdecode, climbs_plainTarget h hquery, hhead⟩
    rcases parse_cases request with ⟨out, hout, hparse⟩ | ⟨hno, -⟩
    · have heq : out = plainTarget p pairs := Option.some.inj (hout.1.symm.trans hdecode)
      rw [hparse, heq, parseQueryString_plainTarget h hquery hsplit]
    · exact absurd haccepted (hno _)

/-! ## 5. Two targets -/

/-- The path of the two targets. -/
theorem clientTarget_a {value : Bytes} : ClientTarget (ascii "/a") [(ascii "q", value)] where
  absolute := rfl
  noDotDot := find_eq_none_iff.mp rfl
  names := by
    intro pair hpair b hb
    rw [List.mem_singleton.mp hpair] at hb
    rw [List.mem_singleton.mp hb]
    rfl

theorem targetText_a {value text : Bytes} (h : Escapes IsUnreserved value text) :
    TargetText (ascii "/a") [(ascii "q", value)] (ascii "/a?q=" ++ text) := by
  have hpath : Escapes IsPathByte (ascii "/a") (ascii "/a") :=
    .kept (by decide) (.kept (by decide) .nil)
  refine ⟨ascii "/a", [ascii "q" ++ ascii "=" ++ text], hpath, .cons ⟨text, h, rfl⟩ .nil, ?_⟩
  simp [ascii]

/-- An escaped `&` splits a value: the pair `q = "x&y=z"` is read as two. -/
theorem escaped_ampersand_not_survives :
    ClientTarget (ascii "/a") [(ascii "q", ascii "x&y=z")] ∧
      TargetText (ascii "/a") [(ascii "q", ascii "x&y=z")] (ascii "/a?q=x%26y%3Dz") ∧
      ¬ TargetSurvives (ascii "/a") [(ascii "q", ascii "x&y=z")] (ascii "/a?q=x%26y%3Dz") := by
  have htext : Escapes IsUnreserved (ascii "x&y=z") (ascii "x%26y%3Dz") :=
    .kept (by decide) (.escaped (by decide) rfl rfl (by decide)
      (.kept (by decide) (.escaped (by decide) rfl rfl (by decide) (.kept (by decide) .nil))))
  refine ⟨clientTarget_a, targetText_a htext, fun hsurvives => ?_⟩
  have hparse := hsurvives { uri := ascii "/a?q=x%26y%3Dz" } rfl
  exact absurd hparse (by decide +kernel)

/-- An escaped `=` survives. -/
theorem escaped_equals_survives :
    TargetSurvives (ascii "/a") [(ascii "q", ascii "x=y")] (ascii "/a?q=" ++ ascii "x%3dy") := by
  have htext : Escapes IsUnreserved (ascii "x=y") (ascii "x%3dy") :=
    .kept (by decide) (.escaped (by decide) rfl rfl (by decide) (.kept (by decide) .nil))
  refine (targetSurvives_iff clientTarget_a (targetText_a htext)).mpr ⟨by decide, ?_⟩
  intro pair hpair
  rw [List.mem_singleton.mp hpair]
  decide

end BoostAsioWebServer
