/-
  File:      BoostAsioWebServer/Services/QueryString.lean
  Subject:   THE ITEMS OF ANY QUERY: what the regex iterator finds in every text.

  The source walks the text with a backtracking pattern. One pass without backtracking finds the
  same (`queryItems_eq`): the text is split at every `&`, a segment gives at most one item
  (`scanItem`), and the item is that of the first `=` with a name byte in front of it
  (`scanItem_iff`). So a name loses what stands in front of its last byte outside the class, a
  `=` without a name is skipped, and the value is the rest of the segment.

  `parse_accepted` is the whole of `parse` on a target it accepts.
-/
import BoostAsioWebServer.Services.QueryItems
import Mathlib.Data.List.Chain

namespace BoostAsioWebServer

open ByteText GreedyPattern

/-! ## 1. One segment in one pass -/

/-- Reads a segment; `name` is the run of name bytes in front of what is left. -/
def scanItem : Bytes → Bytes → Option (Bytes × Bytes)
  | _, [] => none
  | name, b :: bs =>
    if isNameByte b then scanItem (name ++ [b]) bs
    else if b = chr '=' ∧ name ≠ [] then some (name, bs)
    else scanItem [] bs

/-- No name byte has a `=` behind it, and the last byte is no name byte. -/
def PassedOver (front : Bytes) : Prop :=
  front.IsChain (fun b c => isNameByte b = true → c ≠ chr '=') ∧
    ∀ b ∈ front.getLast?, isNameByte b = false

/-- The item of a segment: its first `=` with a name byte in front of it, the whole run of name
    bytes in front of that `=`, and everything behind it. -/
def IsItem (segment : Bytes) (item : Bytes × Bytes) : Prop :=
  ∃ front, segment = front ++ (item.1 ++ chr '=' :: item.2) ∧ PassedOver front ∧
    item.1 ≠ [] ∧ ∀ b ∈ item.1, isNameByte b = true

theorem isNameByte_equals : isNameByte (chr '=') = false := by decide

theorem isNameByte_ampersand : isNameByte (chr '&') = false := by decide

/-- The text behind the first `?`. -/
def behindQuery (uri : Bytes) : Bytes := uri.drop ((textBefore (chr '?') uri).length + 1)

/-- The items of a query, at most one for each segment. -/
def scanItems (query : Bytes) : List (Bytes × Bytes) :=
  (query.splitOn (chr '&')).filterMap (scanItem [])

/-! ## 2. The pattern on one segment -/

theorem queryPattern_consumes : Consumes queryPattern := consumes_cons (Nat.zero_lt_one)

/-- No class of the pattern accepts `&`. -/
theorem queryPattern_delimits : Delimits queryPattern (chr '&') := by
  intro p hp
  rcases List.mem_cons.mp hp with rfl | hp
  · exact isNameByte_ampersand
  rcases List.mem_cons.mp hp with rfl | hp
  · rfl
  rcases List.mem_cons.mp hp with rfl | hp
  · rfl
  exact absurd hp List.not_mem_nil

/-- A run of name bytes without a `=` behind it is no match, and neither is a part of it. -/
theorem search_names {name t : Bytes} (hname : ∀ b ∈ name, isNameByte b = true)
    (ht : ∀ b ∈ t.head?, isNameByte b = false ∧ b ≠ chr '=') :
    search queryPattern (name ++ t) = search queryPattern t := by
  induction name with
  | nil => rfl
  | cons a as ih =>
    have hrun : Run (⟨isNameByte, .plus, true⟩ : Piece UInt8) (a :: as) t :=
      ⟨hname, fun b hb => (ht b hb).1⟩
    have hnone : matchPieces queryPattern (a :: (as ++ t)) = none := by
      rw [← List.cons_append]
      rw [queryPattern, matchPieces, hrun.takeWhile]
      refine tryDown_none fun m _ hm => ?_
      replace hm : m ≤ (a :: as).length := hm
      -- behind a part of the run comes a name byte, behind the whole of it the text
      rw [matchPieces_none rfl]
      · rfl
      intro b hb
      have hne : b ≠ chr '=' := by
        rw [List.drop_append_of_le_length hm] at hb
        cases hdrop : (a :: as).drop m with
        | nil =>
          rw [hdrop, List.nil_append] at hb
          exact (ht b hb).2
        | cons c cs =>
          rw [hdrop] at hb
          obtain rfl : c = b := Option.some.inj hb
          have hc : isNameByte c = true :=
            hname c (List.mem_of_mem_drop (hdrop ▸ List.mem_cons_self))
          intro e
          rw [e, isNameByte_equals] at hc
          cases hc
      exact decide_eq_false hne
    rw [List.cons_append, search_skip hnone]
    exact ih fun b hb => hname b (List.mem_cons_of_mem a hb)

/-- A run of name bytes and a `=` are matched with the rest of the segment as the value. -/
theorem matchPieces_item {name value : Bytes} (hname : ∀ b ∈ name, isNameByte b = true)
    (hne : name ≠ []) (hvalue : chr '&' ∉ value) :
    matchPieces queryPattern (name ++ chr '=' :: value) = some ([name, value], []) := by
  have hval : matchPieces [(⟨fun b => b ≠ chr '&', .star, true⟩ : Piece UInt8)] (value ++ []) =
      some ([value], []) := by
    refine matchPieces_run ⟨fun b hb => ?_, fun b hb => by cases hb⟩ (Nat.zero_le _) rfl rfl
    exact decide_eq_true fun e => hvalue (e ▸ hb)
  rw [List.append_nil] at hval
  have heq := matchPieces_once (p := ⟨fun b => b = chr '=', .once, false⟩) rfl
    (decide_eq_true rfl) hval
  refine matchPieces_run ⟨hname, fun b hb => ?_⟩ (List.length_pos_iff.mpr hne) rfl heq
  obtain rfl : chr '=' = b := Option.some.inj hb
  exact isNameByte_equals

theorem queryItems_nil : queryItems [] = [] := by
  rw [queryItems, queryPattern_consumes.findAll_eq, search, queryPattern_consumes.nil]
  rfl

theorem queryItems_congr {s t : Bytes} (h : search queryPattern s = search queryPattern t) :
    queryItems s = queryItems t := by
  rw [queryItems, queryItems, queryPattern_consumes.findAll_eq s,
    queryPattern_consumes.findAll_eq t, h]

/-- The pass carries the run of name bytes in front of it. -/
theorem queryItems_scan (name : Bytes) {s : Bytes} (hname : ∀ b ∈ name, isNameByte b = true)
    (hs : chr '&' ∉ s) : queryItems (name ++ s) = (scanItem name s).toList := by
  induction s generalizing name with
  | nil =>
    rw [queryItems_congr (search_names hname fun b hb => by cases hb)]
    exact queryItems_nil
  | cons b bs ih =>
    have hbs : chr '&' ∉ bs := fun h => hs (List.mem_cons_of_mem b h)
    rw [scanItem]
    by_cases hb : isNameByte b = true
    · rw [if_pos hb, ← ih (name ++ [b]) ?_ hbs, List.append_assoc]
      · rfl
      intro c hc
      rcases List.mem_append.mp hc with hc | hc
      · exact hname c hc
      · rw [List.mem_singleton.mp hc]
        exact hb
    rw [if_neg hb]
    have hskip : queryItems bs = (scanItem [] bs).toList :=
      ih [] (fun c hc => absurd hc List.not_mem_nil) hbs
    by_cases heq : b = chr '='
    · subst heq
      by_cases hne : name = []
      · -- a `=` without a name
        subst hne
        rw [if_neg fun h => h.2 rfl, ← hskip, List.nil_append]
        refine queryItems_congr (search_skip (matchPieces_none rfl fun c hc => ?_))
        obtain rfl : chr '=' = c := Option.some.inj hc
        exact isNameByte_equals
      · obtain ⟨a, as, rfl⟩ := List.exists_cons_of_ne_nil hne
        rw [if_pos ⟨rfl, hne⟩, queryItems, queryPattern_consumes.findAll_eq, List.cons_append,
          search_here (by rw [← List.cons_append]; exact matchPieces_item hname hne hbs)]
        exact congrArg ((a :: as, bs) :: ·) queryItems_nil
    · rw [if_neg fun h => heq h.1, ← hskip]
      refine queryItems_congr ?_
      rw [search_names hname fun c hc => ?_]
      · refine search_skip (matchPieces_none rfl fun c hc => ?_)
        obtain rfl : b = c := Option.some.inj hc
        simpa using hb
      · obtain rfl : b = c := Option.some.inj hc
        exact ⟨by simpa using hb, heq⟩

/-- **The iterator finds in any text what one pass over its segments finds.** -/
theorem queryItems_eq (query : Bytes) : queryItems query = scanItems query := by
  rw [queryItems, findAll_splitOn queryPattern_consumes queryPattern_delimits, List.map_flatMap,
    scanItems, List.filterMap_eq_flatMap_toList]
  refine List.flatMap_congr fun segment hsegment => ?_
  exact queryItems_scan [] (fun c hc => absurd hc List.not_mem_nil)
    (not_mem_of_mem_splitOn hsegment)

/-! ## 3. What the item of a segment is -/

/-- A run of name bytes has no `=`. -/
theorem equals_not_mem {name : Bytes} (hname : ∀ b ∈ name, isNameByte b = true) :
    chr '=' ∉ name := by
  intro h
  have hclass := hname _ h
  rw [isNameByte_equals] at hclass
  cases hclass

/-- The front of an item reaches behind a byte outside the class that stands before the `=`. -/
theorem front_reaches {front name x rest : Bytes} {b : UInt8}
    (hx : ∀ c ∈ x, isNameByte c = true) (hb : isNameByte b = false)
    (h : front ++ x = name ++ b :: rest) : ∃ back, front = name ++ b :: back ∧ rest = back ++ x := by
  have hmem : b ∉ x := fun hbx => by
    rw [hx b hbx] at hb
    cases hb
  rcases List.append_eq_append_iff.mp h with ⟨as, -, hxas⟩ | ⟨as, hfront, has⟩
  · exact absurd (hxas ▸ List.mem_append_right as List.mem_cons_self) hmem
  rcases List.cons_eq_append_iff.mp has with ⟨-, hbx⟩ | ⟨back, rfl, hback⟩
  · exact absurd (hbx ▸ List.mem_cons_self) hmem
  · exact ⟨back, hfront, hback⟩

/-- A run of name bytes is not followed by a `=` inside. -/
theorem names_isChain {name : Bytes} (hname : ∀ b ∈ name, isNameByte b = true) :
    name.IsChain (fun b c => isNameByte b = true → c ≠ chr '=') := by
  refine List.Pairwise.isChain (List.Pairwise.imp_of_mem ?_ (List.pairwise_of_forall (R := fun
    _ _ => True) fun _ _ => trivial))
  intro b c _ hc _ _ e
  exact equals_not_mem hname (e ▸ hc)

theorem passed_nil : PassedOver [] := ⟨List.IsChain.nil, fun b hb => by cases hb⟩

/-- What a byte outside the class ends, with no `=` behind a name byte, is passed over. -/
theorem passed_append {name front : Bytes} {b : UInt8} (hname : ∀ c ∈ name, isNameByte c = true)
    (hb : isNameByte b = false) (hstop : b = chr '=' → name = []) :
    PassedOver (name ++ b :: front) ↔ PassedOver front := by
  have hlast : (name ++ b :: front).getLast? = some (front.getLast?.getD b) := by
    rw [List.getLast?_append_cons, List.getLast?_cons]
  have hchain : (name ++ b :: front).IsChain (fun b c => isNameByte b = true → c ≠ chr '=') ↔
      front.IsChain (fun b c => isNameByte b = true → c ≠ chr '=') := by
    rw [List.isChain_append, List.isChain_cons]
    refine ⟨fun h => h.2.1.2, fun h => ⟨names_isChain hname, ⟨fun c _ he => ?_, h⟩, ?_⟩⟩
    · rw [hb] at he
      cases he
    · intro c hc d hd _ e
      obtain rfl : b = d := Option.some.inj hd
      rw [hstop e] at hc
      cases hc
  rw [PassedOver, PassedOver, hchain, hlast]
  refine ⟨fun h => ⟨h.1, fun c hc => h.2 c ?_⟩, fun h => ⟨h.1, fun c hc => ?_⟩⟩
  · rw [Option.mem_def.mp hc]
    rfl
  · obtain rfl : front.getLast?.getD b = c := Option.some.inj hc
    cases hf : front.getLast? with
    | none => exact hb
    | some d => exact h.2 d hf

/-- Up to the first byte outside the class the segment has no item, and the item is behind it. -/
theorem isItem_skip {name bs : Bytes} {b : UInt8} {item : Bytes × Bytes}
    (hname : ∀ c ∈ name, isNameByte c = true) (hb : isNameByte b = false)
    (hstop : b = chr '=' → name = []) : IsItem (name ++ b :: bs) item ↔ IsItem bs item := by
  refine ⟨fun h => ?_, fun h => ?_⟩
  · obtain ⟨front, hsplit, hpassed, hne, hclass⟩ := h
    have hreach : ∃ rest, front ++ item.1 = name ++ b :: rest ∧
        bs = rest ++ chr '=' :: item.2 := by
      rw [← List.append_assoc] at hsplit
      rcases List.append_eq_append_iff.mp hsplit with ⟨as, hfront, has⟩ | ⟨as, hfront, has⟩
      · rcases List.cons_eq_append_iff.mp has with ⟨has, hbs⟩ | ⟨rest, rfl, hrest⟩
        · -- the `=` of the item would be `b`, and `name` its name
          have hname' := hstop (List.cons.inj hbs).1.symm
          rw [has, hname'] at hfront
          exact absurd (List.append_eq_nil_iff.mp hfront).2 hne
        · exact ⟨rest, hfront, hrest⟩
      · rcases List.cons_eq_append_iff.mp has with ⟨has, hbs⟩ | ⟨rest, rfl, -⟩
        · have hname' := hstop (List.cons.inj hbs).1
          rw [has, List.append_nil, hname'] at hfront
          exact absurd (List.append_eq_nil_iff.mp hfront.symm).2 hne
        · exact absurd (hfront ▸ List.mem_append_right _ List.mem_cons_self)
            (equals_not_mem hname)
    obtain ⟨rest, hfront, rfl⟩ := hreach
    obtain ⟨back, rfl, rfl⟩ := front_reaches hclass hb hfront
    exact ⟨back, List.append_assoc _ _ _, (passed_append hname hb hstop).mp hpassed, hne, hclass⟩
  · obtain ⟨front, rfl, hpassed, hne, hclass⟩ := h
    exact ⟨name ++ b :: front, by simp, (passed_append hname hb hstop).mpr hpassed, hne, hclass⟩

/-- A run of name bytes and a `=` at the start of a segment are its item. -/
theorem isItem_here {name value : Bytes} {item : Bytes × Bytes}
    (hname : ∀ c ∈ name, isNameByte c = true) (hne : name ≠ []) :
    IsItem (name ++ chr '=' :: value) item ↔ item = (name, value) := by
  refine ⟨fun h => ?_, fun h => ?_⟩
  · obtain ⟨front, hsplit, hpassed, hne', hclass⟩ := h
    have hsame : front ++ item.1 = name ∧ item.2 = value := by
      rw [← List.append_assoc] at hsplit
      rcases List.append_eq_append_iff.mp hsplit with ⟨as, hfront, has⟩ | ⟨as, hfront, has⟩
      · rcases List.cons_eq_append_iff.mp has with ⟨rfl, hvalue⟩ | ⟨rest, rfl, -⟩
        · rw [List.append_nil] at hfront
          exact ⟨hfront, (List.cons.inj hvalue).2⟩
        · -- the front would hold the `=` behind the name
          obtain ⟨back, rfl, -⟩ := front_reaches hclass isNameByte_equals hfront
          obtain ⟨init, last, rfl⟩ := List.eq_nil_or_concat name |>.resolve_left hne
          have hlast : isNameByte last = true := hname last (by simp)
          have hchain := hpassed.1
          rw [List.concat_eq_append, List.append_assoc, List.isChain_append, List.singleton_append,
            List.isChain_cons] at hchain
          exact absurd rfl (hchain.2.1.1 _ rfl hlast)
      · rcases List.cons_eq_append_iff.mp has with ⟨rfl, hvalue⟩ | ⟨rest, rfl, -⟩
        · rw [List.append_nil] at hfront
          exact ⟨hfront.symm, (List.cons.inj hvalue).2.symm⟩
        · exact absurd (hfront ▸ List.mem_append_right _ List.mem_cons_self)
            (equals_not_mem hname)
    obtain ⟨rfl, rfl⟩ := hsame
    have hfront : front = [] := by
      rcases List.eq_nil_or_concat front with h | ⟨init, last, rfl⟩
      · exact h
      · have hlast := hpassed.2 last (by simp)
        rw [hname last (by simp)] at hlast
        cases hlast
    rw [hfront]
    rfl
  · subst h
    exact ⟨[], rfl, passed_nil, hne, hname⟩

/-- The pass finds the item of the segment, from any run of name bytes it has behind it. -/
theorem scanItem_spec (name s : Bytes) (item : Bytes × Bytes)
    (hname : ∀ b ∈ name, isNameByte b = true) :
    scanItem name s = some item ↔ IsItem (name ++ s) item := by
  induction s generalizing name with
  | nil =>
    refine ⟨fun h => (by cases h), fun h => ?_⟩
    obtain ⟨front, hsplit, -⟩ := h
    rw [List.append_nil] at hsplit
    exact absurd (hsplit ▸ by simp) (equals_not_mem hname)
  | cons b bs ih =>
    rw [scanItem]
    by_cases hb : isNameByte b = true
    · have hname' : ∀ c ∈ name ++ [b], isNameByte c = true := by
        intro c hc
        rcases List.mem_append.mp hc with hc | hc
        · exact hname c hc
        · rw [List.mem_singleton.mp hc]
          exact hb
      rw [if_pos hb, ih _ hname', List.append_assoc, List.singleton_append]
    rw [if_neg hb]
    by_cases hfound : b = chr '=' ∧ name ≠ []
    · obtain ⟨rfl, hne⟩ := hfound
      rw [if_pos ⟨rfl, hne⟩, isItem_here hname hne]
      exact ⟨fun h => (Option.some.inj h).symm, fun h => by rw [h]⟩
    · have hstop : b = chr '=' → name = [] := fun e => by
        by_contra hne
        exact hfound ⟨e, hne⟩
      rw [if_neg hfound, isItem_skip hname (by simpa using hb) hstop]
      exact ih [] fun c hc => absurd hc List.not_mem_nil

/-- **The item of a segment**: found by the pass exactly when the segment has one. -/
theorem scanItem_iff (segment : Bytes) (item : Bytes × Bytes) :
    scanItem [] segment = some item ↔ IsItem segment item :=
  scanItem_spec [] segment item fun _ hb => absurd hb List.not_mem_nil

/-! ## 4. The whole of `parse` -/

/-- A byte outside the class at the start of a query changes nothing. -/
theorem scanItems_skip {b : UInt8} {query : Bytes} (hb : isNameByte b = false)
    (hne : b ≠ chr '&') : scanItems (b :: query) = scanItems query := by
  obtain ⟨first, rest, hsplit⟩ := List.exists_cons_of_ne_nil (List.splitOn_ne_nil (chr '&') query)
  have hfirst : scanItem [] (b :: first) = scanItem [] first := by
    rw [scanItem, if_neg (by simp [hb]), if_neg fun h => h.2 rfl]
  rw [scanItems, scanItems, List.splitOn_cons_eq_if_modifyHead,
    if_neg (fun e => hne (beq_iff_eq.mp e)), hsplit, List.modifyHead_cons, List.filterMap_cons,
    List.filterMap_cons, hfirst]

/-- What the split adds and what it leaves. -/
theorem parseQueryString_eq (request : Request) :
    parseQueryString request =
      { request with
        uri := textBefore (chr '?') request.uri
        queryStrings := request.queryStrings ++ scanItems (behindQuery request.uri) } := by
  unfold parseQueryString behindQuery
  by_cases hquery : chr '?' ∈ request.uri
  · obtain ⟨query, huri⟩ := eq_textBefore_append hquery
    have hfind : find (ascii "?") request.uri = some (textBefore (chr '?') request.uri).length :=
      find_delimiter hquery
    have htake : request.uri.take (textBefore (chr '?') request.uri).length =
        textBefore (chr '?') request.uri :=
      List.prefix_iff_eq_take.mp ⟨_, huri.symm⟩ |>.symm
    have hdrop : request.uri.drop (textBefore (chr '?') request.uri).length = chr '?' :: query := by
      conv_lhs => rw [huri, textBefore_append (not_mem_textBefore _ request.uri)]
      exact List.drop_left
    have hbehind : request.uri.drop ((textBefore (chr '?') request.uri).length + 1) = query := by
      rw [← List.drop_drop, hdrop]
      rfl
    simp only [hfind, htake, hdrop, hbehind, queryItems_eq]
    rw [scanItems_skip (by decide) (by decide)]
  · have hfind : find (ascii "?") request.uri = none := find_no_delimiter hquery
    have hbehind : request.uri.drop (request.uri.length + 1) = [] :=
      List.drop_eq_nil_of_le (Nat.le_succ _)
    simp only [hfind, textBefore_of_not_mem hquery, hbehind]
    show request = { request with queryStrings := request.queryStrings ++ [] }
    rw [List.append_nil]

/-- **`parse` on a target it accepts**: the path is the decoded text before the first `?`, and the
    items are added in order, one for each segment that has one. -/
theorem parse_accepted {request : Request} {out : Bytes} (h : AcceptedTarget request.uri out) :
    RequestURIParserService.parse request =
      ({ request with
          uri := textBefore (chr '?') out
          queryStrings := request.queryStrings ++ scanItems (behindQuery out) }, true) ∧
    ∀ segment item, scanItem [] segment = some item ↔ IsItem segment item := by
  refine ⟨?_, scanItem_iff⟩
  rcases parse_cases request with ⟨out', h', hparse⟩ | ⟨hno, -⟩
  · obtain rfl : out' = out := Option.some.inj (h'.1.symm.trans h.1)
    rw [hparse, parseQueryString_eq]
  · exact absurd h (hno out)

/-- A name cut at its hyphen, a `=` without a name, a segment without a `=`, an escaped `&`. -/
theorem parse_accepted_odd :
    (RequestURIParserService.parse
      { uri := ascii "/a?my-id=1&=2=3&none&b+=%26c=4&x=y=z" }).1.queryStrings =
        [(ascii "id", ascii "1"), (ascii "2", ascii "3"), (ascii "c", ascii "4"),
          (ascii "x", ascii "y=z")] := by
  have hitems : scanItems (ascii "my-id=1&=2=3&none&b =&c=4&x=y=z") =
      [(ascii "id", ascii "1"), (ascii "2", ascii "3"), (ascii "c", ascii "4"),
        (ascii "x", ascii "y=z")] := by decide +kernel
  have haccepted : AcceptedTarget (ascii "/a?my-id=1&=2=3&none&b+=%26c=4&x=y=z")
      (ascii "/a?my-id=1&=2=3&none&b =&c=4&x=y=z") := by
    refine ⟨?_, ?_, ?_⟩ <;> decide +kernel
  rw [(@parse_accepted { uri := ascii "/a?my-id=1&=2=3&none&b+=%26c=4&x=y=z" } _ haccepted).1]
  exact hitems

end BoostAsioWebServer
