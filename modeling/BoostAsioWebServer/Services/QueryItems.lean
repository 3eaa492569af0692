/-
  File:      BoostAsioWebServer/Services/QueryItems.lean
  Subject:   THE NAMES OF QUERY ITEMS.

  A query is split at every `&` into segments, and a segment at its first `=` into a name and a
  value: `segmentsOf`. The source finds its items by a search for `([\w+%]+)=([^&]*)` instead, and
  a match may start inside a name. Over plain queries -- no escapes, every segment has a `=`,
  every name is a non-empty text of unreserved characters -- the items are the segments, if and
  only if every name is of word characters: the class leaves `-`, `.` and `~` out
  (`itemsWhole_iff`).
-/
import BoostAsioWebServer.Services.RequestURIDecoding

namespace BoostAsioWebServer

open ByteText

/-! ## 1. Segments -/

/-- A segment as a name and a value: the text before its first `=`, and the text behind it. -/
def segmentItem (segment : Bytes) : Bytes × Bytes :=
  (textBefore (chr '=') segment, segment.drop ((textBefore (chr '=') segment).length + 1))

/-- The names and values of a query, segment by segment. -/
def segmentsOf (query : Bytes) : List (Bytes × Bytes) :=
  (query.splitOn (chr '&')).map segmentItem

/-- An accepted target without escapes whose query is a list of segments `name=value`. -/
structure PlainQuery (uri query : Bytes) : Prop where
  plain : ∀ b ∈ uri, IsCopied b
  accepted : (RequestURIParserService.parse { uri := uri }).2 = true
  behindPath : uri = textBefore (chr '?') uri ++ chr '?' :: query
  segments : ∀ segment ∈ query.splitOn (chr '&'), chr '=' ∈ segment
  names : ∀ item ∈ segmentsOf query, item.1 ≠ [] ∧ ∀ b ∈ item.1, IsUnreserved b

/-- Every segment is added as one item, in order, with its whole name and its whole value. -/
def ItemsWhole (uri query : Bytes) : Prop :=
  ∀ request : Request, request.uri = uri →
    (RequestURIParserService.parse request).1.queryStrings =
      request.queryStrings ++ segmentsOf query

/-- A segment with a `=` is its name and its value around it. -/
theorem plainPair_segmentItem {segment : Bytes} (h : chr '=' ∈ segment) :
    plainPair (segmentItem segment) = segment := by
  obtain ⟨value, hsegment⟩ := eq_textBefore_append h
  have hdrop : segment.drop ((textBefore (chr '=') segment).length + 1) = value := by
    conv_lhs => rw [hsegment, textBefore_append (not_mem_textBefore _ segment)]
    rw [List.drop_append, List.drop_eq_nil_of_le (Nat.le_succ _)]
    simp
  show textBefore (chr '=') segment ++ ascii "=" ++ segment.drop _ = segment
  rw [hdrop, List.append_assoc]
  exact hsegment.symm

/-- The value of a segment has no `&`. -/
theorem segment_value {query : Bytes} {item : Bytes × Bytes} (h : item ∈ segmentsOf query) :
    chr '&' ∉ item.2 := by
  obtain ⟨segment, hsegment, rfl⟩ := List.mem_map.mp h
  exact fun hamp => not_mem_of_mem_splitOn hsegment (List.mem_of_mem_drop hamp)

/-- The query is its items, written as `name=value` and joined by `&`. -/
theorem query_eq_plainPairs {query : Bytes}
    (hseg : ∀ segment ∈ query.splitOn (chr '&'), chr '=' ∈ segment) :
    ∃ item items, segmentsOf query = item :: items ∧
      query = plainPair item ++ plainPairs items := by
  have hpairs : (segmentsOf query).map plainPair = query.splitOn (chr '&') := by
    rw [segmentsOf, List.map_map]
    conv_rhs => rw [← List.map_id (query.splitOn (chr '&'))]
    exact List.map_congr_left fun segment h => plainPair_segmentItem (hseg segment h)
  have hjoin : (ascii "&").intercalate ((segmentsOf query).map plainPair) = query := by
    rw [hpairs]
    exact List.intercalate_splitOn (chr '&')
  have hne : segmentsOf query ≠ [] := fun e =>
    List.splitOn_ne_nil (chr '&') query (List.map_eq_nil_iff.mp e)
  obtain ⟨item, items, hitems⟩ := List.exists_cons_of_ne_nil hne
  refine ⟨item, items, hitems, ?_⟩
  rw [hitems, List.map_cons, intercalate_cons, List.flatMap_map] at hjoin
  exact hjoin.symm

/-! ## 2. The theorem -/

/-- Without escapes the target is its own decoded text, and `parse` splits it. -/
theorem PlainQuery.parse_eq {uri query : Bytes} (h : PlainQuery uri query) (request : Request)
    (huri : request.uri = uri) :
    RequestURIParserService.parse request = (parseQueryString request, true) := by
  have hdecode : decode uri = some uri := by
    have hcopy := decode_copy h.plain []
    rw [List.append_nil] at hcopy
    rw [hcopy, decode, Option.map_some, List.append_nil]
  obtain ⟨out, haccepted⟩ := (parse_true_iff _).mp h.accepted
  rcases parse_cases request with ⟨out', haccepted', hparse⟩ | ⟨hno, -⟩
  · have hout := haccepted'.1
    rw [huri, hdecode] at hout
    cases hout
    rw [hparse, ← huri]
  · rw [huri] at hno
    exact absurd haccepted (hno out)

/-- The items of a plain query are those the iterator finds behind its `?`. -/
theorem PlainQuery.queryStrings {uri query : Bytes} (h : PlainQuery uri query) (request : Request)
    (huri : request.uri = uri) :
    (RequestURIParserService.parse request).1.queryStrings =
      request.queryStrings ++ queryItems (chr '?' :: query) := by
  have hmem : chr '?' ∈ uri := by
    rw [h.behindPath]
    exact List.mem_append_right _ List.mem_cons_self
  have hfind : find (ascii "?") request.uri = some (textBefore (chr '?') uri).length := by
    rw [huri]
    exact find_delimiter hmem
  have hdrop : request.uri.drop (textBefore (chr '?') uri).length = chr '?' :: query := by
    rw [huri]
    conv_lhs => rw [h.behindPath, textBefore_append (not_mem_textBefore _ uri)]
    exact List.drop_left
  rw [h.parse_eq request huri, parseQueryString, hfind]
  simp only [hdrop]

/-- **The items keep their whole names if and only if every name is of word characters.** -/
theorem itemsWhole_iff {uri query : Bytes} (h : PlainQuery uri query) :
    ItemsWhole uri query ↔ ∀ item ∈ segmentsOf query, ∀ b ∈ item.1, isWord b = true := by
  constructor
  · intro hwhole item hitem b hb
    have hitems := (h.queryStrings { uri := uri } rfl).symm.trans (hwhole { uri := uri } rfl)
    have hfound : item ∈ queryItems (chr '?' :: query) := by
      rw [List.append_cancel_left hitems]
      exact hitem
    obtain ⟨-, hclass, -⟩ := mem_queryItems hfound
    -- the class also has `+` and `%`, which are no unreserved characters
    have hword : ∀ b : UInt8, isNameByte b = true → IsUnreserved b → isWord b = true := by
      decide +kernel
    exact hword b (hclass b hb) ((h.names item hitem).2 b hb)
  · intro hwords request huri
    obtain ⟨item, items, hitems, hquery⟩ := query_eq_plainPairs h.segments
    rw [hitems] at hwords
    have hsplit : ∀ q ∈ item :: items, Splittable q := by
      intro q hq
      rw [← hitems] at hq
      exact ⟨(h.names q hq).1, segment_value hq⟩
    rw [h.queryStrings request huri, hitems, hquery, queryItems_pairs hwords hsplit]

/-! ## 3. Two queries -/

/-- Two segments, and a value that has a `=` of its own. -/
theorem itemsWhole_two : ItemsWhole (ascii "/a?id_1=A&id2=x=y") (ascii "id_1=A&id2=x=y") := by
  have hquery : PlainQuery (ascii "/a?id_1=A&id2=x=y") (ascii "id_1=A&id2=x=y") :=
    ⟨by decide +kernel, by decide +kernel, by decide +kernel, by decide +kernel, by decide +kernel⟩
  exact (itemsWhole_iff hquery).mpr (by decide +kernel)

/-- Of the name `my-name` only `name` is kept. -/
theorem itemsWhole_hyphen_fails :
    PlainQuery (ascii "/a?my-name=1") (ascii "my-name=1") ∧
      (RequestURIParserService.parse { uri := ascii "/a?my-name=1" }).1.queryStrings =
        [(ascii "name", ascii "1")] ∧
      ¬ ItemsWhole (ascii "/a?my-name=1") (ascii "my-name=1") := by
  have hquery : PlainQuery (ascii "/a?my-name=1") (ascii "my-name=1") :=
    ⟨by decide +kernel, by decide +kernel, by decide +kernel, by decide +kernel, by decide +kernel⟩
  have hparse : (RequestURIParserService.parse { uri := ascii "/a?my-name=1" }).1.queryStrings =
      [(ascii "name", ascii "1")] := by decide +kernel
  refine ⟨hquery, hparse, fun hwhole => ?_⟩
  have hitems := hwhole { uri := ascii "/a?my-name=1" } rfl
  rw [hparse] at hitems
  exact absurd hitems (by decide +kernel)

end BoostAsioWebServer
