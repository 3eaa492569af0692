/-
  File:      BoostAsioWebServer/Lib/GreedyPattern.lean
  Subject:   PATTERNS OF GREEDY CHARACTER CLASSES: match, search, all matches.

  The fragment of regular expressions that is a sequence of character classes, each taken once,
  one or more times (`+`) or any number of times (`*`), some of them captured. Matching is
  ECMAScript's: a repeated class takes as many symbols as it can and gives them back one by one
  while the rest of the pattern fails; a search takes the leftmost match; the iterator goes on
  behind the match it has found. The iterator is for patterns that match no empty text.

  * `matchPieces_sound`: what a match captures lies in the classes, in the order of the pattern;
  * `matchPieces_run`: a class whose run is ended by a symbol outside the class matches that run;
  * `matchPieces_once`: a class taken once takes one symbol;
  * `search_here`, `search_skip`: a search takes the match at hand, or moves on by one symbol;
  * `findAll_delimiter`: the matches of a text are those of its parts between the symbols that no
    class accepts, `findAll_splitOn`.
-/
import Mathlib.Data.List.TakeWhile
import Mathlib.Tactic.Common

namespace GreedyPattern

variable {α : Type*}

/-- How often a class is taken. -/
inductive Quantifier where
  | once
  | plus
  | star
  deriving DecidableEq, Repr

/-- One class of a pattern. -/
structure Piece (α : Type*) where
  accepts : α → Bool
  quantifier : Quantifier
  captured : Bool

/-- The fewest symbols the class takes. -/
def Quantifier.fewest : Quantifier → Nat
  | .once => 1
  | .plus => 1
  | .star => 0

/-- The most symbols the class takes of a run of `n` it accepts. -/
def Quantifier.most : Quantifier → Nat → Nat
  | .once, n => min 1 n
  | .plus, n => n
  | .star, n => n

/-! ## 1. Matching -/

/-- Backtracking: tries `n`, `n - 1`, … down to `low`. -/
def tryDown {β : Type*} (low : Nat) (k : Nat → Option β) : Nat → Option β
  | 0 => if low = 0 then k 0 else none
  | n + 1 => if n + 1 < low then none else (k (n + 1)).or (tryDown low k n)

/-- Matches the pattern at the start of the text: the captures, and the text behind the match. -/
def matchPieces : List (Piece α) → List α → Option (List (List α) × List α)
  | [], s => some ([], s)
  | p :: ps, s =>
    tryDown p.quantifier.fewest
      (fun n => (matchPieces ps (s.drop n)).map fun (caps, rest) =>
        (if p.captured then s.take n :: caps else caps, rest))
      (p.quantifier.most (s.takeWhile p.accepts).length)

/-- The leftmost match of the pattern. -/
def search (ps : List (Piece α)) : List α → Option (List (List α) × List α)
  | [] => matchPieces ps []
  | a :: as => (matchPieces ps (a :: as)).or (search ps as)

/-- All matches, each searched behind the one before; at most `fuel` of them. -/
def findAllFuel (ps : List (Piece α)) : Nat → List α → List (List (List α))
  | 0, _ => []
  | fuel + 1, s =>
    match search ps s with
    | none => []
    | some (caps, rest) => caps :: findAllFuel ps fuel rest

/-- All matches of a pattern that matches no empty text: there are no more than symbols. -/
def findAll (ps : List (Piece α)) (s : List α) : List (List (List α)) :=
  findAllFuel ps (s.length + 1) s

/-! ## 2. Soundness: what a match captures -/

theorem tryDown_some {β : Type*} {low : Nat} {k : Nat → Option β} {n : Nat} {b : β}
    (h : tryDown low k n = some b) : ∃ m, low ≤ m ∧ m ≤ n ∧ k m = some b := by
  induction n with
  | zero =>
    unfold tryDown at h
    split at h
    · rename_i h0
      exact ⟨0, h0.le, Nat.le_refl 0, h⟩
    · cases h
  | succ n ih =>
    unfold tryDown at h
    split at h
    · cases h
    · rename_i hlow
      cases hk : k (n + 1) with
      | some c =>
        rw [hk, Option.some_or] at h
        exact ⟨n + 1, not_lt.mp hlow, Nat.le_refl _, by rw [hk, h]⟩
      | none =>
        rw [hk, Option.none_or] at h
        obtain ⟨m, hlm, hmn, hm⟩ := ih h
        exact ⟨m, hlm, Nat.le_succ_of_le hmn, hm⟩

theorem Quantifier.most_le (q : Quantifier) (n : Nat) : q.most n ≤ n := by
  cases q
  · exact Nat.min_le_right 1 n
  · exact Nat.le_refl n
  · exact Nat.le_refl n

/-- A capture of a class: symbols it accepts, and at least as many as it asks for. -/
def Piece.Captures (p : Piece α) (c : List α) : Prop :=
  p.quantifier.fewest ≤ c.length ∧ ∀ a ∈ c, p.accepts a = true

/-- **A match captures what its classes accept**, class by class. -/
theorem matchPieces_sound {ps : List (Piece α)} {s rest : List α} {caps : List (List α)}
    (h : matchPieces ps s = some (caps, rest)) :
    List.Forall₂ Piece.Captures (ps.filter (·.captured)) caps := by
  induction ps generalizing s caps rest with
  | nil =>
    cases h
    exact .nil
  | cons p ps ih =>
    obtain ⟨m, hlow, hmost, hm⟩ := tryDown_some h
    obtain ⟨⟨caps', _⟩, hps, heq⟩ := Option.map_eq_some_iff.mp hm
    have hrun : m ≤ (s.takeWhile p.accepts).length := hmost.trans (p.quantifier.most_le _)
    have htake : s.take m = (s.takeWhile p.accepts).take m := by
      obtain ⟨t, ht⟩ := List.takeWhile_prefix (l := s) p.accepts
      conv_lhs => rw [← ht]
      exact List.take_append_of_le_length hrun
    have hcap : p.Captures (s.take m) := by
      rw [htake]
      refine ⟨by rw [List.length_take, Nat.min_eq_left hrun]; exact hlow, fun a ha => ?_⟩
      exact List.mem_takeWhile_imp (List.mem_of_mem_take ha)
    cases hc : p.captured with
    | true =>
      simp only [hc, if_true, Prod.mk.injEq] at heq
      rw [List.filter_cons_of_pos hc, ← heq.1]
      exact .cons hcap (ih hps)
    | false =>
      simp only [hc, Bool.false_eq_true, if_false, Prod.mk.injEq] at heq
      rw [List.filter_cons_of_neg (by simp [hc]), ← heq.1]
      exact ih hps

theorem search_sound {ps : List (Piece α)} {s rest : List α} {caps : List (List α)}
    (h : search ps s = some (caps, rest)) :
    List.Forall₂ Piece.Captures (ps.filter (·.captured)) caps := by
  induction s with
  | nil => exact matchPieces_sound h
  | cons a as ih =>
    unfold search at h
    rcases Option.or_eq_some_iff.mp h with hm | ⟨-, hs⟩
    · exact matchPieces_sound hm
    · exact ih hs

/-- Every match of the iterator captures what the classes accept. -/
theorem findAll_sound {ps : List (Piece α)} {s : List α} {caps : List (List α)}
    (h : caps ∈ findAll ps s) : List.Forall₂ Piece.Captures (ps.filter (·.captured)) caps := by
  unfold findAll at h
  generalize s.length + 1 = fuel at h
  induction fuel generalizing s with
  | zero => cases h
  | succ fuel ih =>
    unfold findAllFuel at h
    split at h
    · cases h
    · rename_i caps' rest hs
      rcases List.mem_cons.mp h with rfl | h
      · exact search_sound hs
      · exact ih h

/-! ## 3. Matching a delimited run -/

theorem tryDown_here {β : Type*} {low n : Nat} {k : Nat → Option β} {b : β} (hlow : low ≤ n)
    (h : k n = some b) : tryDown low k n = some b := by
  cases n with
  | zero => simp [tryDown, Nat.le_zero.mp hlow, h]
  | succ n => simp [tryDown, not_lt.mpr hlow, h]

/-- A run of accepted symbols that a symbol outside the class (or the end) follows. -/
def Run (p : Piece α) (run t : List α) : Prop :=
  (∀ a ∈ run, p.accepts a = true) ∧ ∀ a ∈ t.head?, p.accepts a = false

theorem Run.takeWhile {p : Piece α} {run t : List α} (h : Run p run t) :
    (run ++ t).takeWhile p.accepts = run := by
  rw [List.takeWhile_append_of_pos h.1]
  cases t with
  | nil => simp
  | cons a as => simp [h.2 a rfl]

/-- **A delimited run is matched whole**: no symbol has to be given back. -/
theorem matchPieces_run {p : Piece α} {ps : List (Piece α)} {run t rest : List α}
    {caps : List (List α)} (hrun : Run p run t) (hfewest : p.quantifier.fewest ≤ run.length)
    (hmost : p.quantifier.most run.length = run.length)
    (h : matchPieces ps t = some (caps, rest)) :
    matchPieces (p :: ps) (run ++ t) =
      some (if p.captured then run :: caps else caps, rest) := by
  rw [matchPieces, hrun.takeWhile, hmost]
  refine tryDown_here hfewest ?_
  simp [h]

/-- A class taken once takes the one symbol, whatever follows it. -/
theorem matchPieces_once {p : Piece α} {ps : List (Piece α)} {a : α} {t rest : List α}
    {caps : List (List α)} (hp : p.quantifier = .once) (ha : p.accepts a = true)
    (h : matchPieces ps t = some (caps, rest)) :
    matchPieces (p :: ps) (a :: t) = some (if p.captured then [a] :: caps else caps, rest) := by
  have hmost : p.quantifier.most ((a :: t).takeWhile p.accepts).length = 1 := by
    rw [List.takeWhile_cons_of_pos ha, hp, List.length_cons]
    exact Nat.min_eq_left (Nat.succ_pos _)
  rw [matchPieces, hmost]
  refine tryDown_here (by rw [hp]; decide) ?_
  simp [h]

/-- Where the first class takes a symbol and the text does not start with one, nothing matches. -/
theorem matchPieces_none {p : Piece α} {ps : List (Piece α)} {t : List α}
    (hfewest : p.quantifier.fewest = 1) (h : ∀ a ∈ t.head?, p.accepts a = false) :
    matchPieces (p :: ps) t = none := by
  have hrun : Run p [] t := ⟨fun _ ha => absurd ha List.not_mem_nil, h⟩
  have ht := hrun.takeWhile
  rw [List.nil_append] at ht
  have hmost : p.quantifier.most 0 = 0 := Nat.le_zero.mp (p.quantifier.most_le 0)
  rw [matchPieces, ht, List.length_nil, hmost, hfewest]
  rfl

theorem search_here {ps : List (Piece α)} {a : α} {as : List α} {r : List (List α) × List α}
    (h : matchPieces ps (a :: as) = some r) : search ps (a :: as) = some r := by
  rw [search, h, Option.some_or]

theorem search_skip {ps : List (Piece α)} {a : α} {as : List α}
    (h : matchPieces ps (a :: as) = none) : search ps (a :: as) = search ps as := by
  rw [search, h, Option.none_or]

/-! ## 4. All matches -/

/-- A match of the pattern takes at least one symbol. -/
def Consumes (ps : List (Piece α)) : Prop :=
  ∀ s caps rest, matchPieces ps s = some (caps, rest) → rest.length < s.length

theorem matchPieces_length {ps : List (Piece α)} {s rest : List α} {caps : List (List α)}
    (h : matchPieces ps s = some (caps, rest)) : rest.length ≤ s.length := by
  induction ps generalizing s caps rest with
  | nil =>
    cases h
    exact Nat.le_refl _
  | cons p ps ih =>
    obtain ⟨m, -, -, hm⟩ := tryDown_some h
    obtain ⟨⟨caps', rest'⟩, hps, heq⟩ := Option.map_eq_some_iff.mp hm
    obtain rfl : rest' = rest := congrArg Prod.snd heq
    exact (ih hps).trans (by rw [List.length_drop]; exact Nat.sub_le _ _)

/-- A pattern whose first class takes a symbol matches no empty text. -/
theorem consumes_cons {p : Piece α} {ps : List (Piece α)} (hp : 0 < p.quantifier.fewest) :
    Consumes (p :: ps) := by
  intro s caps rest h
  obtain ⟨m, hlow, hmost, hm⟩ := tryDown_some h
  obtain ⟨⟨caps', rest'⟩, hps, heq⟩ := Option.map_eq_some_iff.mp hm
  obtain rfl : rest' = rest := congrArg Prod.snd heq
  have hrun : m ≤ s.length :=
    hmost.trans ((p.quantifier.most_le _).trans (List.takeWhile_prefix _).length_le)
  have hrest := matchPieces_length hps
  rw [List.length_drop] at hrest
  omega

theorem Consumes.nil {ps : List (Piece α)} (h : Consumes ps) : matchPieces ps [] = none := by
  cases hm : matchPieces ps [] with
  | none => rfl
  | some r => exact absurd (h [] r.1 r.2 hm) (Nat.not_lt_zero _)

theorem Consumes.search_lt {ps : List (Piece α)} (h : Consumes ps) {s rest : List α}
    {caps : List (List α)} (hs : search ps s = some (caps, rest)) : rest.length < s.length := by
  induction s with
  | nil => exact h _ _ _ hs
  | cons a as ih =>
    unfold search at hs
    rcases Option.or_eq_some_iff.mp hs with hm | ⟨-, hs⟩
    · exact h _ _ _ hm
    · exact (ih hs).trans (Nat.lt_succ_self _)

/-- More fuel than symbols changes nothing. -/
theorem Consumes.findAllFuel_eq {ps : List (Piece α)} (h : Consumes ps) {fuel : Nat} {s : List α}
    (hfuel : s.length < fuel) : findAllFuel ps fuel s = findAll ps s := by
  suffices hall : ∀ fuel fuel' (s : List α), s.length < fuel → s.length < fuel' →
      findAllFuel ps fuel s = findAllFuel ps fuel' s from
    hall _ _ s hfuel (Nat.lt_succ_self _)
  intro fuel
  induction fuel with
  | zero => exact fun _ _ h0 => absurd h0 (Nat.not_lt_zero _)
  | succ fuel ih =>
    intro fuel' s hs hs'
    obtain ⟨fuel', rfl⟩ := Nat.exists_eq_succ_of_ne_zero (Nat.ne_of_gt (Nat.zero_lt_of_lt hs'))
    unfold findAllFuel
    cases hsearch : search ps s with
    | none => rfl
    | some r =>
      have hlt := h.search_lt hsearch
      exact congrArg (r.1 :: ·) (ih fuel' r.2 (by omega) (by omega))

/-- All matches: the first one, and those behind it. -/
theorem Consumes.findAll_eq {ps : List (Piece α)} (h : Consumes ps) (s : List α) :
    findAll ps s =
      match search ps s with
      | none => []
      | some (caps, rest) => caps :: findAll ps rest := by
  conv_lhs => rw [findAll, findAllFuel]
  cases hsearch : search ps s with
  | none => rfl
  | some r => exact congrArg (r.1 :: ·) (h.findAllFuel_eq (h.search_lt hsearch))

/-! ## 5. Delimiters: symbols that no class accepts -/

/-- No class of the pattern accepts the symbol. -/
def Delimits (ps : List (Piece α)) (d : α) : Prop := ∀ p ∈ ps, p.accepts d = false

theorem tryDown_map {β γ : Type*} {low n : Nat} {k : Nat → Option β} {k' : Nat → Option γ}
    {f : β → γ} (h : ∀ m, m ≤ n → k' m = (k m).map f) :
    tryDown low k' n = (tryDown low k n).map f := by
  induction n with
  | zero =>
    unfold tryDown
    split
    · exact h 0 (Nat.le_refl 0)
    · rfl
  | succ n ih =>
    unfold tryDown
    split
    · rfl
    · rw [h (n + 1) (Nat.le_refl _), ih fun m hm => h m (Nat.le_succ_of_le hm), Option.map_or]

theorem tryDown_none {β : Type*} {low n : Nat} {k : Nat → Option β}
    (h : ∀ m, low ≤ m → m ≤ n → k m = none) : tryDown low k n = none := by
  cases hk : tryDown low k n with
  | none => rfl
  | some b =>
    obtain ⟨m, hlow, hm, hkm⟩ := tryDown_some hk
    rw [h m hlow hm] at hkm
    cases hkm

/-- **A match does not reach beyond a delimiter.** -/
theorem matchPieces_delimiter {ps : List (Piece α)} {d : α} (hd : Delimits ps d) (s t : List α) :
    matchPieces ps (s ++ d :: t) =
      (matchPieces ps s).map fun r => (r.1, r.2 ++ d :: t) := by
  induction ps generalizing s with
  | nil => rfl
  | cons p ps ih =>
    have hrun : (s ++ d :: t).takeWhile p.accepts = s.takeWhile p.accepts := by
      rw [List.takeWhile_append]
      split
      · rename_i hall
        have hp : ¬ p.accepts d = true := by simp [hd p List.mem_cons_self]
        rw [List.takeWhile_cons_of_neg hp, List.append_nil, List.takeWhile_eq_self_iff.mpr]
        intro a ha
        rw [← List.IsPrefix.eq_of_length (List.takeWhile_prefix _) hall] at ha
        exact List.mem_takeWhile_imp ha
      · rfl
    rw [matchPieces, matchPieces, hrun]
    refine tryDown_map fun m hm => ?_
    have hlen : m ≤ s.length :=
      hm.trans ((p.quantifier.most_le _).trans (List.takeWhile_prefix _).length_le)
    rw [List.drop_append_of_le_length hlen, List.take_append_of_le_length hlen,
      ih fun q hq => hd q (List.mem_cons_of_mem p hq)]
    cases matchPieces ps (s.drop m) <;> rfl

theorem search_delimiter {ps : List (Piece α)} {d : α} (hps : Consumes ps) (hd : Delimits ps d)
    (s t : List α) :
    search ps (s ++ d :: t) =
      ((search ps s).map fun r => (r.1, r.2 ++ d :: t)).or (search ps t) := by
  induction s with
  | nil =>
    have hnone : matchPieces ps ([] ++ d :: t) = none := by
      rw [matchPieces_delimiter hd, hps.nil]
      rfl
    rw [List.nil_append] at hnone ⊢
    rw [search_skip hnone, search, hps.nil]
    rfl
  | cons a as ih =>
    rw [List.cons_append, search, ih, ← List.cons_append, matchPieces_delimiter hd, search,
      Option.map_or, Option.or_assoc]

/-- **The matches on both sides of a delimiter** are those of the two texts alone. -/
theorem findAll_delimiter {ps : List (Piece α)} {d : α} (hps : Consumes ps) (hd : Delimits ps d)
    (s t : List α) : findAll ps (s ++ d :: t) = findAll ps s ++ findAll ps t := by
  induction hlen : s.length using Nat.strong_induction_on generalizing s with
  | _ n ih =>
    rw [hps.findAll_eq (s ++ d :: t), search_delimiter hps hd, hps.findAll_eq s]
    cases hsearch : search ps s with
    | none =>
      rw [Option.map_none, Option.none_or, List.nil_append]
      exact (hps.findAll_eq t).symm
    | some r =>
      rw [Option.map_some, Option.some_or, List.cons_append]
      exact congrArg (r.1 :: ·) (ih _ (by rw [← hlen]; exact hps.search_lt hsearch) r.2 rfl)

/-- The matches of a text are those of its parts, part by part. -/
theorem findAll_splitOn [DecidableEq α] {ps : List (Piece α)} {d : α} (hps : Consumes ps)
    (hd : Delimits ps d) (s : List α) : findAll ps s = (s.splitOn d).flatMap (findAll ps) := by
  induction hlen : s.length using Nat.strong_induction_on generalizing s with
  | _ n ih =>
    by_cases hmem : d ∈ s
    · obtain ⟨front, back, rfl, hfront⟩ := List.eq_append_cons_of_mem hmem
      rw [findAll_delimiter hps hd, List.splitOn_append_cons_self_of_not_mem hfront,
        List.flatMap_cons]
      exact congrArg _ (ih _ (by rw [← hlen]; simp; omega) back rfl)
    · rw [List.splitOn_eq_singleton hmem, List.flatMap_singleton]

end GreedyPattern
