/-
  File:      BoostAsioWebServer/Services/CORSDecoration.lean
  Subject:   WHAT `addCORSHeaders` ADDS, AND WHAT IT LEAVES ALONE.

  The source adds its headers one by one. `corsPairs` is the list of them, and
  `lookup_addHeaders` says once what adding such a list does to the header map: each of the names
  gets its value, every other name keeps its own. `cors_exact` reads the six headers off it.

  The lists are joined by a loop that looks at the text joined so far; over non-empty items it is
  the join by `,` (`getCommaSeparatedList_eq`), so a split at `,` gives the items back.
-/
import BoostAsioWebServer.Services.ReplyServices

namespace BoostAsioWebServer

open ByteText

/-! ## 1. The joined lists -/

/-- The strings of a configuration are not empty and have no comma. -/
structure CommaFree (cors : CORSConfiguration) : Prop where
  exposedHeaders : ∀ item ∈ cors.exposedHeaders.1, item ≠ [] ∧ chr ',' ∉ item
  allowedHeaders : ∀ item ∈ cors.allowedHeaders.1, item ≠ [] ∧ chr ',' ∉ item
  allowedMethods : ∀ item ∈ cors.allowedMethods.1, item ≠ [] ∧ chr ',' ∉ item

/-- The loop joins non-empty items by `,`. -/
theorem getCommaSeparatedList_eq {items : StringSet} (h : ∀ item ∈ items.1, item ≠ []) :
    getCommaSeparatedList items = (ascii ",").intercalate items.1 := by
  have hfold (xs : List Bytes) (acc : Bytes) (hacc : acc ≠ []) :
      xs.foldl (fun itemsStr item =>
        itemsStr ++ (if itemsStr ≠ [] then ascii "," else []) ++ item) acc =
        acc ++ xs.flatMap (ascii "," ++ ·) := by
    induction xs generalizing acc with
    | nil => exact (List.append_nil acc).symm
    | cons x xs ih =>
      have hnext : acc ++ ascii "," ++ x ≠ [] := by simp [hacc]
      rw [List.foldl_cons, if_pos hacc, ih _ hnext, List.flatMap_cons]
      simp only [List.append_assoc]
  obtain ⟨items, hsorted⟩ := items
  cases items with
  | nil => rfl
  | cons x xs =>
    have hx : x ≠ [] := h x List.mem_cons_self
    rw [intercalate_cons]
    exact hfold xs x hx

/-- The value is the list of items: empty for no item, and otherwise its parts at the commas. -/
def ListsItems (value : Bytes) (items : List Bytes) : Prop :=
  (items = [] → value = []) ∧ (items ≠ [] → value.splitOn (chr ',') = items)

/-- **A split at `,` gives the items back.** -/
theorem listsItems_getCommaSeparatedList {items : StringSet}
    (h : ∀ item ∈ items.1, item ≠ [] ∧ chr ',' ∉ item) :
    ListsItems (getCommaSeparatedList items) items.1 := by
  rw [getCommaSeparatedList_eq fun item hitem => (h item hitem).1]
  refine ⟨fun hnil => ?_, fun hne => ?_⟩
  · rw [hnil]
    rfl
  · exact List.splitOn_intercalate (chr ',') (fun item hitem => (h item hitem).2) hne

/-! ## 2. Adding a list of headers -/

/-- `Reply::addHeader` inserts an absent name. -/
def AddAbsentSpec (env : External) : Prop :=
  ∀ m name value, m.contains name = false → env.addHeader m name value = m.insert name value

/-- Headers added one by one. -/
def Reply.addHeaders (env : External) (reply : Reply) (pairs : List (Bytes × Bytes)) : Reply :=
  pairs.foldl (fun reply pair => reply.addHeader env pair.1 pair.2) reply

/-- **Adding headers of different absent names** gives each of them its value, and leaves the value
    of every other name. -/
theorem lookup_addHeaders {env : External} (henv : AddAbsentSpec env) {reply : Reply}
    {pairs : List (Bytes × Bytes)} (hnames : (pairs.map (·.1)).Nodup)
    (habsent : ∀ pair ∈ pairs, reply.headers.contains pair.1 = false) (name : Bytes) :
    (reply.addHeaders env pairs).headers.lookup name =
      (SortedMap.lookupEntry name pairs).or (reply.headers.lookup name) := by
  induction pairs generalizing reply with
  | nil => rfl
  | cons pair pairs ih =>
    rw [List.map_cons, List.nodup_cons] at hnames
    obtain ⟨hfirst, hnames⟩ := hnames
    have hne : ∀ q ∈ pairs, q.1 ≠ pair.1 := fun q hq e => hfirst (e ▸ List.mem_map_of_mem hq)
    have hheaders : (reply.addHeader env pair.1 pair.2).headers =
        reply.headers.insert pair.1 pair.2 := henv _ _ _ (habsent pair List.mem_cons_self)
    have hnext : ∀ q ∈ pairs, (reply.addHeader env pair.1 pair.2).headers.contains q.1 = false := by
      intro q hq
      rw [hheaders, ← SortedMap.lookup_eq_none_iff, SortedMap.lookup_insert_ne _ (hne q hq),
        SortedMap.lookup_eq_none_iff]
      exact habsent q (List.mem_cons_of_mem _ hq)
    have hrest := ih hnames hnext
    rw [hheaders] at hrest
    show ((reply.addHeader env pair.1 pair.2).addHeaders env pairs).headers.lookup name = _
    rw [hrest, SortedMap.lookupEntry]
    by_cases hname : name = pair.1
    · have hnone : SortedMap.lookupEntry name pairs = none :=
        SortedMap.lookupEntry_eq_none_iff.mpr fun q hq e => hne q hq (e.trans hname)
      rw [if_pos hname, hnone, hname, SortedMap.lookup_insert_self]
      rfl
    · rw [if_neg hname, SortedMap.lookup_insert_ne _ hname]

/-- The headers the source adds, in its order. -/
def corsPairs (env : External) (cors : CORSConfiguration) (request : Request) :
    List (Bytes × Bytes) :=
  let origin := env.getHeader request.headers (ascii "Origin")
  (if cors.isAllowedOrigin origin then [(ascii "Access-Control-Allow-Origin", origin)] else []) ++
    [(ascii "Access-Control-Expose-Headers", getCommaSeparatedList cors.exposedHeaders),
      (ascii "Access-Control-Allow-Headers", getCommaSeparatedList cors.allowedHeaders),
      (ascii "Access-Control-Allow-Methods", getCommaSeparatedList cors.allowedMethods),
      (ascii "Access-Control-Allow-Credentials",
        if cors.allowedCredentials then ascii "true" else ascii "false"),
      (ascii "Access-Control-Max-Age", intText cors.maxAge)]

theorem addCORSHeaders_eq (env : External) (cors : CORSConfiguration) (request : Request)
    (reply : Reply) :
    addCORSHeaders env cors request reply =
      if cors.enabled && env.hasHeader request.headers (ascii "Origin") then
        reply.addHeaders env (corsPairs env cors request)
      else reply := by
  unfold addCORSHeaders corsPairs
  by_cases hallowed : cors.isAllowedOrigin (env.getHeader request.headers (ascii "Origin")) = true
  · simp only [hallowed, if_true, Reply.addHeaders, List.cons_append, List.nil_append,
      List.foldl_cons, List.foldl_nil]
  · simp only [hallowed, if_false, Bool.false_eq_true, Reply.addHeaders, List.nil_append,
      List.foldl_cons, List.foldl_nil]

theorem corsHeaderNames_nodup : corsHeaderNames.Nodup := by decide +kernel

/-- The names are among the six, and different. -/
theorem corsPairs_names (env : External) (cors : CORSConfiguration) (request : Request) :
    ((corsPairs env cors request).map (·.1)).Nodup ∧
      ∀ pair ∈ corsPairs env cors request, pair.1 ∈ corsHeaderNames := by
  have hsub : List.Sublist ((corsPairs env cors request).map (·.1)) corsHeaderNames := by
    unfold corsPairs corsHeaderNames
    by_cases hallowed : cors.isAllowedOrigin (env.getHeader request.headers (ascii "Origin")) = true
    · simp only [hallowed, if_true, List.cons_append, List.nil_append, List.map_cons, List.map_nil]
      exact List.Sublist.refl _
    · simp only [hallowed, if_false, Bool.false_eq_true, List.nil_append, List.map_cons,
        List.map_nil]
      exact List.sublist_cons_self _ _
  exact ⟨corsHeaderNames_nodup.sublist hsub, fun pair hpair => hsub.subset (List.mem_map_of_mem hpair)⟩

/-! ## 3. The theorem -/

/-- What a request with an Origin gets. -/
structure Decorated (env : External) (cors : CORSConfiguration) (request : Request) (out : Reply) :
    Prop where
  origin : out.headers.lookup (ascii "Access-Control-Allow-Origin") =
    if cors.isAllowedOrigin (env.getHeader request.headers (ascii "Origin")) then
      some (env.getHeader request.headers (ascii "Origin"))
    else none
  exposed : ∃ value, out.headers.lookup (ascii "Access-Control-Expose-Headers") = some value ∧
    ListsItems value cors.exposedHeaders.1
  headers : ∃ value, out.headers.lookup (ascii "Access-Control-Allow-Headers") = some value ∧
    ListsItems value cors.allowedHeaders.1
  methods : ∃ value, out.headers.lookup (ascii "Access-Control-Allow-Methods") = some value ∧
    ListsItems value cors.allowedMethods.1
  credentials : out.headers.lookup (ascii "Access-Control-Allow-Credentials") =
    some (if cors.allowedCredentials then ascii "true" else ascii "false")
  maxAge : out.headers.lookup (ascii "Access-Control-Max-Age") = some (intText cors.maxAge)

/-- What the decoration does to a reply, and what it does not touch. -/
structure CORSExact (env : External) (cors : CORSConfiguration) (request : Request)
    (reply out : Reply) : Prop where
  status : out.status = reply.status
  content : out.content = reply.content
  others : ∀ name, name ∉ corsHeaderNames → out.headers.lookup name = reply.headers.lookup name
  off : cors.enabled = false ∨ env.hasHeader request.headers (ascii "Origin") = false → out = reply
  on : cors.enabled = true → env.hasHeader request.headers (ascii "Origin") = true →
    Decorated env cors request out

/-- The decoration of a reply without CORS headers. -/
theorem decorated_addHeaders {env : External} (henv : AddAbsentSpec env) {cors : CORSConfiguration}
    (hcors : CommaFree cors) (request : Request) {reply : Reply}
    (habsent : ∀ name ∈ corsHeaderNames, reply.headers.contains name = false) :
    Decorated env cors request (reply.addHeaders env (corsPairs env cors request)) := by
  obtain ⟨hnodup, hnames⟩ := corsPairs_names env cors request
  have hlookup := lookup_addHeaders henv hnodup fun pair hpair => habsent _ (hnames pair hpair)
  have hvalue {name value : Bytes} (h : (name, value) ∈ corsPairs env cors request) :
      (reply.addHeaders env (corsPairs env cors request)).headers.lookup name = some value := by
    rw [hlookup, SortedMap.lookupEntry_of_mem hnodup h]
    rfl
  -- the five headers that depend on nothing, in the order of the source
  refine ⟨?_, ⟨_, hvalue (List.mem_append_right _ (.head _)),
      listsItems_getCommaSeparatedList hcors.exposedHeaders⟩,
    ⟨_, hvalue (List.mem_append_right _ (.tail _ (.head _))),
      listsItems_getCommaSeparatedList hcors.allowedHeaders⟩,
    ⟨_, hvalue (List.mem_append_right _ (.tail _ (.tail _ (.head _)))),
      listsItems_getCommaSeparatedList hcors.allowedMethods⟩,
    hvalue (List.mem_append_right _ (.tail _ (.tail _ (.tail _ (.head _))))),
    hvalue (List.mem_append_right _ (.tail _ (.tail _ (.tail _ (.tail _ (.head _))))))⟩
  by_cases hallowed : cors.isAllowedOrigin (env.getHeader request.headers (ascii "Origin")) = true
  · rw [if_pos hallowed]
    refine hvalue (List.mem_append_left _ ?_)
    rw [if_pos hallowed]
    exact .head _
  · have hother : ∀ pair ∈ corsPairs env cors request,
        pair.1 ≠ ascii "Access-Control-Allow-Origin" := by
      intro pair hpair hname
      simp only [corsPairs, hallowed, Bool.false_eq_true, if_false, List.nil_append] at hpair
      have hmem := List.mem_map_of_mem (f := fun pair : Bytes × Bytes => pair.1) hpair
      rw [hname] at hmem
      exact (List.nodup_cons.mp corsHeaderNames_nodup).1 hmem
    rw [if_neg hallowed, hlookup, SortedMap.lookupEntry_eq_none_iff.mpr hother]
    exact SortedMap.lookup_eq_none_iff.mpr (habsent _ List.mem_cons_self)

/-- **CORS decoration is exact, and leaves the rest alone.** -/
theorem cors_exact {env : External} (henv : AddAbsentSpec env) {cors : CORSConfiguration}
    (hcors : CommaFree cors) (request : Request) {reply : Reply}
    (habsent : ∀ name ∈ corsHeaderNames, reply.headers.contains name = false) :
    CORSExact env cors request reply (addCORSHeaders env cors request reply) := by
  obtain ⟨hnodup, hnames⟩ := corsPairs_names env cors request
  refine ⟨addCORSHeaders_status env cors request reply,
    addCORSHeaders_content env cors request reply, fun name hname => ?_, fun hoff => ?_,
    fun hon horigin => ?_⟩
  · rw [addCORSHeaders_eq]
    split
    · have hnone : SortedMap.lookupEntry name (corsPairs env cors request) = none :=
        SortedMap.lookupEntry_eq_none_iff.mpr fun pair hpair e => hname (e ▸ hnames pair hpair)
      rw [lookup_addHeaders henv hnodup fun pair hpair => habsent _ (hnames pair hpair), hnone]
      rfl
    · rfl
  · rw [addCORSHeaders_eq]
    rcases hoff with hoff | hoff
    · rw [hoff]
      rfl
    · rw [hoff, Bool.and_false]
      rfl
  · rw [addCORSHeaders_eq, hon, horigin]
    exact decorated_addHeaders henv hcors request habsent

/-! ## 4. A decoration -/

theorem get_lt_put : ascii "GET" < ascii "PUT" := by decide

/-- A configuration with two methods, one header to expose and none to allow. -/
def twoMethods : CORSConfiguration :=
  { CORSConfiguration.off with
    enabled := true
    isAllowedOrigin := fun origin => origin = ascii "http://a"
    exposedHeaders := ⟨[ascii "X"], List.pairwise_singleton _ _⟩
    allowedMethods := ⟨[ascii "GET", ascii "PUT"], List.pairwise_pair.mpr get_lt_put⟩ }

/-- A request from an allowed origin. -/
def corsRequest : Request := { headers := [(ascii "Origin", ascii "http://a")] }

/-- The origin is allowed, the methods are two. -/
theorem cors_exact_two :
    ∃ value, (addCORSHeaders .reference twoMethods corsRequest (.ofStatus .ok)).headers.lookup
        (ascii "Access-Control-Allow-Methods") = some value ∧
      value.splitOn (chr ',') = [ascii "GET", ascii "PUT"] := by
  have henv : AddAbsentSpec .reference := fun _ _ _ _ => rfl
  have hcors : CommaFree twoMethods :=
    ⟨by decide +kernel, by decide +kernel, by decide +kernel⟩
  have habsent : ∀ name ∈ corsHeaderNames, (Reply.ofStatus .ok).headers.contains name = false :=
    fun _ _ => rfl
  have hexact := cors_exact henv hcors corsRequest habsent
  obtain ⟨value, hvalue, -, hsplit⟩ := (hexact.on rfl (by decide +kernel)).methods
  exact ⟨value, hvalue, hsplit (List.cons_ne_nil _ _)⟩

end BoostAsioWebServer
