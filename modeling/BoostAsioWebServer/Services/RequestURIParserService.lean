/-
  File:      BoostAsioWebServer/Services/RequestURIParserService.lean
  Subject:   THE REQUEST TARGET (`Services/RequestURIParserService.cpp`): decode, check, split.

  `parse` decodes the target first and splits it afterwards, so a delimiter that was escaped is
  one again when the split looks at the text.

  * `extractHex`: what `is >> std::hex >> value` reads of the two bytes behind a `%`;
  * `decode`: the loop over the target; `none` where the source returns `false`;
  * `climbs`: the test for `".."` before the first `?`;
  * `parseQueryString`: the split at the first `?` and the items the regex iterator finds;
  * `parse_cases`: the two outcomes of `parse`; `mem_queryItems`: the shape of every item.
-/
import BoostAsioWebServer.Interface
import BoostAsioWebServer.Lib.GreedyPattern

namespace BoostAsioWebServer

open ByteText GreedyPattern

/-! ## 1. Decoding -/

/-- The value of a hexadecimal digit. -/
def hexDigit (b : UInt8) : Option Nat :=
  if 48 ≤ b.toNat ∧ b.toNat ≤ 57 then some (b.toNat - 48)
  else if 65 ≤ b.toNat ∧ b.toNat ≤ 70 then some (b.toNat - 55)
  else if 97 ≤ b.toNat ∧ b.toNat ≤ 102 then some (b.toNat - 87)
  else none

/-- The whitespace a formatted extraction skips. -/
def isSpace (b : UInt8) : Bool := b = chr ' ' || (decide (9 ≤ b.toNat) && decide (b.toNat ≤ 13))

/-- The digits at the start of a text as one number; `none` where there is no digit. -/
def hexNumber (s : Bytes) : Option Nat :=
  match s.takeWhile fun b => (hexDigit b).isSome with
  | [] => none
  | d :: ds => some ((d :: ds).foldl (fun v b => v * 16 + (hexDigit b).getD 0) 0)

/-- `is >> std::hex >> value`: whitespace, a sign and a prefix `0x` may stand before the digits,
    and what follows the digits is not looked at. -/
def extractHex (s : Bytes) : Option Int :=
  let unsigned (t : Bytes) : Option Nat :=
    match t with
    | z :: x :: ds => if z = chr '0' ∧ (x = chr 'x' ∨ x = chr 'X') then hexNumber ds else hexNumber t
    | _ => hexNumber t
  match s.dropWhile isSpace with
  | [] => none
  | b :: bs =>
    if b = chr '-' then (unsigned bs).map fun v : Nat => -(v : Int)
    else if b = chr '+' then (unsigned bs).map fun v : Nat => (v : Int)
    else (unsigned (b :: bs)).map fun v : Nat => (v : Int)

/-- `static_cast<char>` of an `int`. -/
def toChar (value : Int) : UInt8 := UInt8.ofNat (value % 256).toNat

/-- The loop of `parse` over the target; `none` where it returns `false`. -/
def decode : Bytes → Option Bytes
  | [] => some []
  | b :: bs =>
    if b = chr '%' then
      match bs with
      | x :: y :: rest =>
        match extractHex [x, y] with
        | some value => (decode rest).map (toChar value :: ·)
        | none => none
      | _ => none
    else if b = chr '+' then (decode bs).map (chr ' ' :: ·)
    else (decode bs).map (b :: ·)

/-! ## 2. The query string -/

/-- `\w` of the pattern. -/
def isWord (b : UInt8) : Bool :=
  (decide (48 ≤ b.toNat) && decide (b.toNat ≤ 57)) ||
    (decide (65 ≤ b.toNat) && decide (b.toNat ≤ 90)) ||
    (decide (97 ≤ b.toNat) && decide (b.toNat ≤ 122)) || b = chr '_'

/-- The class `[\w+%]`. -/
def isNameByte (b : UInt8) : Bool := isWord b || b = chr '+' || b = chr '%'

/-- The pattern `([\w+%]+)=([^&]*)`. -/
def queryPattern : List (Piece UInt8) :=
  [⟨isNameByte, .plus, true⟩, ⟨fun b => b = chr '=', .once, false⟩,
    ⟨fun b => b ≠ chr '&', .star, true⟩]

/-- The items the regex iterator finds: the two captures of each match. -/
def queryItems (queryStrings : Bytes) : List (Bytes × Bytes) :=
  (findAll queryPattern queryStrings).map fun groups => (groups.getD 0 [], groups.getD 1 [])

/-- `RequestURIParserService::parseQueryString`. -/
def parseQueryString (request : Request) : Request :=
  match find (ascii "?") request.uri with
  | none => request
  | some posQuery =>
    { request with
      uri := request.uri.take posQuery
      queryStrings := request.queryStrings ++ queryItems (request.uri.drop posQuery) }

/-! ## 3. `parse` -/

/-- The decoded target has `".."` before its first `?`. -/
def climbs (out : Bytes) : Bool :=
  match find (ascii "..") out with
  | none => false
  | some posDotDot =>
    match find (ascii "?") out with
    | none => true
    | some posQuery => decide (posQuery > posDotDot)

/-- `RequestURIParserService::parse`: the request afterwards, and the verdict. -/
def RequestURIParserService.parse (request : Request) : Request × Bool :=
  match decode request.uri with
  | none => (request, false)
  | some out =>
    if climbs out then (request, false)
    else if out.length = 0 ∨ out.head? ≠ some (chr '/') then (request, false)
    else (parseQueryString { request with uri := out }, true)

/-! ## 4. What `parse` answers -/

/-- The target decodes to an absolute path that does not climb. -/
def AcceptedTarget (uri out : Bytes) : Prop :=
  decode uri = some out ∧ climbs out = false ∧ out.head? = some (chr '/')

/-- **The two outcomes**: an accepted target is split, and any other leaves the request as it is. -/
theorem parse_cases (request : Request) :
    (∃ out, AcceptedTarget request.uri out ∧
      RequestURIParserService.parse request = (parseQueryString { request with uri := out }, true)) ∨
    ((∀ out, ¬ AcceptedTarget request.uri out) ∧
      RequestURIParserService.parse request = (request, false)) := by
  unfold RequestURIParserService.parse
  cases hd : decode request.uri with
  | none =>
    refine Or.inr ⟨fun out h => ?_, rfl⟩
    rw [AcceptedTarget, hd] at h
    cases h.1
  | some out =>
    have hout : ∀ out', AcceptedTarget request.uri out' → out' = out := by
      intro out' h
      rw [AcceptedTarget, hd] at h
      exact (Option.some.inj h.1).symm
    by_cases hc : climbs out = true
    · refine Or.inr ⟨fun out' h => ?_, by simp only [hc, if_true]⟩
      obtain rfl := hout out' h
      rw [h.2.1] at hc
      cases hc
    by_cases hs : out.head? = some (chr '/')
    · refine Or.inl ⟨out, ⟨hd, by simpa using hc, hs⟩, ?_⟩
      have hne : out.length ≠ 0 := fun h0 => by
        rw [List.length_eq_zero_iff.mp h0] at hs
        cases hs
      simp only [hc, hs, hne, ne_eq, not_true_eq_false, or_self, if_false, Bool.false_eq_true]
    · refine Or.inr ⟨fun out' h => ?_, ?_⟩
      · obtain rfl := hout out' h
        exact hs h.2.2
      · simp only [hc, hs, ne_eq, not_false_eq_true, or_true, if_true, if_false,
          Bool.false_eq_true]

/-- `parse` answers `true` exactly for the accepted targets. -/
theorem parse_true_iff (request : Request) :
    (RequestURIParserService.parse request).2 = true ↔ ∃ out, AcceptedTarget request.uri out := by
  rcases parse_cases request with ⟨out, hout, h⟩ | ⟨hno, h⟩
  · rw [h]
    exact ⟨fun _ => ⟨out, hout⟩, fun _ => rfl⟩
  · rw [h]
    exact ⟨fun e => absurd e Bool.false_ne_true, fun ⟨out, hout⟩ => absurd hout (hno out)⟩

/-- A target that is refused leaves the request as it is. -/
theorem parse_refused {request : Request} (h : (RequestURIParserService.parse request).2 = false) :
    (RequestURIParserService.parse request).1 = request := by
  rcases parse_cases request with ⟨out, -, h'⟩ | ⟨-, h'⟩
  · rw [h'] at h
    cases h
  · rw [h']

/-- An item has a name, of the class of the pattern, and a value without `&`. -/
theorem mem_queryItems {queryStrings : Bytes} {item : Bytes × Bytes}
    (h : item ∈ queryItems queryStrings) :
    item.1 ≠ [] ∧ (∀ b ∈ item.1, isNameByte b = true) ∧ chr '&' ∉ item.2 := by
  obtain ⟨groups, hgroups, rfl⟩ := List.mem_map.mp h
  have hsound := findAll_sound hgroups
  have hpieces : queryPattern.filter (·.captured) =
      [⟨isNameByte, .plus, true⟩, ⟨fun b => b ≠ chr '&', .star, true⟩] := rfl
  rw [hpieces] at hsound
  cases hsound with
  | @cons _ name _ _ hname htail =>
    cases htail with
    | @cons _ value _ _ hvalue hend =>
      cases hend
      show name ≠ [] ∧ (∀ b ∈ name, isNameByte b = true) ∧ chr '&' ∉ value
      refine ⟨?_, hname.2, fun hamp => absurd (hvalue.2 _ hamp) (by decide)⟩
      rintro rfl
      exact absurd hname.1 (by decide)

/-- What the split leaves as the URI has no `?`. -/
theorem parseQueryString_uri (request : Request) : chr '?' ∉ (parseQueryString request).uri := by
  unfold parseQueryString
  cases hf : find (ascii "?") request.uri with
  | none =>
    intro hmem
    obtain ⟨before, after, he⟩ := List.append_of_mem hmem
    exact find_eq_none_iff.mp hf ⟨before, after, by simp [he, ascii]⟩
  | some pos =>
    obtain ⟨hle, -, hfirst⟩ := find_eq_some_iff.mp hf
    intro hmem
    obtain ⟨i, hi, hget⟩ := List.getElem_of_mem hmem
    rw [List.length_take] at hi
    refine hfirst i (by omega) ?_
    rw [List.drop_eq_getElem_cons (by omega)]
    rw [List.getElem_take] at hget
    exact ⟨request.uri.drop (i + 1), by rw [hget]; rfl⟩

end BoostAsioWebServer
