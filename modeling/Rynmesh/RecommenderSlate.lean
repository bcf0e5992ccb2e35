import Rynmesh.Recommender

/-!
# What the recommender recommends

* `recommend_eq`: the two loops leave the best newcomers and then the best of the others,
  of the candidates that the filters accept among those that the sourcing leaves;
* `slate_length_le`, `nodup_slate`, `mem_of_mem_slate`: a slate is short, without
  repetition, and of candidates that were ranked;
* `right_of_firstIsBest`, `firstIsBest_of_right`: it is the best admissible slate when the
  first candidate of an id is a best one, and for long enough slates only then.
-/

namespace Recommend

variable {S : Type*}

/-! ### Filters -/

/-- What a filter accepts by itself, without what it has seen in this call. -/
def Filter.Accepts : Filter → Candidate → UserState → Prop
  | .safety, candidate, _ => candidate.safetyOutcome ≠ "block"
  | .dedup _, candidate, user => candidate.contentId ∉ user.fetchedContentIds
  | .dismissedContent contentIds, candidate, _ => candidate.contentId ∉ contentIds
  | .dismissedPublisher, candidate, user => candidate.publisherPeerId ∉ user.dismissedPublishers

def Filter.seen : Filter → List String
  | .dedup seen => seen
  | _ => []

def Admissible (filters : List Filter) (user : UserState) (candidate : Candidate) : Prop :=
  ∀ filter ∈ filters, filter.Accepts candidate user

/-- No `DedupFilter` has seen an id. -/
def Fresh (filters : List Filter) : Prop := ∀ filter ∈ filters, filter.seen = []

def Seen (filters : List Filter) (id : String) : Prop := ∃ filter ∈ filters, id ∈ filter.seen

instance (filter : Filter) (candidate : Candidate) (user : UserState) :
    Decidable (filter.Accepts candidate user) := by
  cases filter <;> unfold Filter.Accepts <;> infer_instance

instance (filters : List Filter) (user : UserState) (candidate : Candidate) :
    Decidable (Admissible filters user candidate) :=
  inferInstanceAs (Decidable (∀ filter ∈ filters, filter.Accepts candidate user))

variable {user : UserState}

variable {candidate : Candidate}

theorem Filter.keep_dedup {seen : List String} :
    (Filter.dedup seen).keep candidate user =
      if candidate.contentId ∈ seen then (false, .dedup seen)
      else if candidate.contentId ∈ user.fetchedContentIds then (false, .dedup seen)
      else (true, .dedup (candidate.contentId :: seen)) := rfl

theorem Filter.keep_fst {filter : Filter} :
    (filter.keep candidate user).1 = true ↔
      filter.Accepts candidate user ∧ candidate.contentId ∉ filter.seen := by
  cases filter with
  | safety => simp [Filter.keep, Filter.Accepts, Filter.seen]
  | dedup seen =>
    rw [Filter.keep_dedup]
    by_cases hseen : candidate.contentId ∈ seen
    · simp [hseen, Filter.Accepts, Filter.seen]
    · by_cases hfetched : candidate.contentId ∈ user.fetchedContentIds
      · simp [hseen, hfetched, Filter.Accepts]
      · simp [hseen, hfetched, Filter.Accepts, Filter.seen]
  | dismissedContent contentIds => simp [Filter.keep, Filter.Accepts, Filter.seen]
  | dismissedPublisher => simp [Filter.keep, Filter.Accepts, Filter.seen]

theorem Filter.keep_accepts {filter : Filter} {other : Candidate} :
    (filter.keep candidate user).2.Accepts other user ↔ filter.Accepts other user := by
  cases filter with
  | safety => exact Iff.rfl
  | dedup seen =>
    rw [Filter.keep_dedup]
    by_cases hseen : candidate.contentId ∈ seen
    · rw [if_pos hseen]
    · rw [if_neg hseen]
      by_cases hfetched : candidate.contentId ∈ user.fetchedContentIds
      · rw [if_pos hfetched]
      · rw [if_neg hfetched]
        exact Iff.rfl
  | dismissedContent contentIds | dismissedPublisher => exact Iff.rfl

theorem Filter.keep_seen {filter : Filter} {id : String}
    (h : id ∈ (filter.keep candidate user).2.seen) :
    id = candidate.contentId ∨ id ∈ filter.seen := by
  cases filter with
  | safety => exact .inr h
  | dedup seen =>
    rw [Filter.keep_dedup] at h
    by_cases hseen : candidate.contentId ∈ seen
    · rw [if_pos hseen] at h
      exact .inr h
    rw [if_neg hseen] at h
    by_cases hfetched : candidate.contentId ∈ user.fetchedContentIds
    · rw [if_pos hfetched] at h
      exact .inr h
    · rw [if_neg hfetched] at h
      exact List.mem_cons.mp h
  | dismissedContent contentIds | dismissedPublisher => exact .inr h

variable {filters : List Filter}

theorem keepAll_fst :
    (keepAll filters candidate user).1 = true ↔
      Admissible filters user candidate ∧ ¬ Seen filters candidate.contentId := by
  induction filters with
  | nil => simp [keepAll, Admissible, Seen]
  | cons filter filters ih =>
    unfold keepAll
    by_cases hkeep : (filter.keep candidate user).1 = true
    · rw [if_pos hkeep]
      have hfilter := Filter.keep_fst.mp hkeep
      simp [ih, Admissible, Seen, hfilter.1, hfilter.2]
    rw [if_neg hkeep]
    have hfilter := fun h => hkeep (Filter.keep_fst.mpr h)
    simp only [Bool.false_eq_true, false_iff]
    intro h
    exact hfilter ⟨h.1 filter (.head _),
      fun hseen => h.2 ⟨filter, (.head _), hseen⟩⟩

theorem keepAll_admissible {other : Candidate} :
    Admissible (keepAll filters candidate user).2 user other ↔ Admissible filters user other := by
  induction filters with
  | nil => exact Iff.rfl
  | cons filter filters ih =>
    unfold keepAll
    unfold Admissible at ih ⊢
    by_cases hkeep : (filter.keep candidate user).1 = true
    · rw [if_pos hkeep]
      simp only [List.forall_mem_cons, Filter.keep_accepts, ih]
    · rw [if_neg hkeep]
      simp only [List.forall_mem_cons, Filter.keep_accepts]

theorem keepAll_seen {id : String} (h : Seen (keepAll filters candidate user).2 id) :
    id = candidate.contentId ∨ Seen filters id := by
  induction filters with
  | nil => exact .inr h
  | cons filter filters ih =>
    unfold keepAll at h
    by_cases hkeep : (filter.keep candidate user).1 = true
    · rw [if_pos hkeep] at h
      obtain ⟨found, hfound, hid⟩ := h
      rcases List.mem_cons.mp hfound with rfl | hfound
      · exact (Filter.keep_seen hid).imp_right fun hid => ⟨filter, (.head _), hid⟩
      · refine (ih ⟨found, hfound, hid⟩).imp_right fun hseen => ?_
        obtain ⟨other, hother, hid⟩ := hseen
        exact ⟨other, .tail _ hother, hid⟩
    · rw [if_neg hkeep] at h
      obtain ⟨found, hfound, hid⟩ := h
      rcases List.mem_cons.mp hfound with rfl | hfound
      · exact (Filter.keep_seen hid).imp_right fun hid => ⟨filter, (.head _), hid⟩
      · exact .inr ⟨found, .tail _ hfound, hid⟩

/-! ### The loops -/

def ids (entries : List (Scored S)) : List String := entries.map fun e => e.1.contentId

/-- The slate of a call in which `ranked` is gone through, starting with `filters`: an id that
a filter has seen was chosen, or no filter change made it inadmissible. -/
structure Sound (filters : List Filter) (user : UserState) (ranked : List (Scored S))
    (slate : Slate S) : Prop where
  admissible : ∀ candidate, Admissible slate.filters user candidate ↔
    Admissible filters user candidate
  seen : ∀ id, Seen slate.filters id → id ∈ slate.chosenIds ∨
    ∃ e ∈ ranked, e.1.contentId = id ∧ ¬ Admissible filters user e.1
  chosen : ∀ id, id ∈ slate.chosenIds ↔ id ∈ ids slate.kept

section Loops

variable {filters : List Filter} {ranked : List (Scored S)} (hnodup : (ids ranked).Nodup)

include hnodup

theorem eq_of_id {a b : Scored S} (ha : a ∈ ranked) (hb : b ∈ ranked)
    (h : a.1.contentId = b.1.contentId) : a = b :=
  List.inj_on_of_nodup_map hnodup ha hb h

theorem offer_eq {slate : Slate S} (hsound : Sound filters user ranked slate) {e : Scored S}
    (he : e ∈ ranked) (hnew : e.1.contentId ∉ slate.chosenIds) :
    (slate.offer e user).kept =
        (if Admissible filters user e.1 then slate.kept ++ [e] else slate.kept) ∧
      (slate.offer e user).chosenIds =
        (if Admissible filters user e.1 then e.1.contentId :: slate.chosenIds
          else slate.chosenIds) ∧
      Sound filters user ranked (slate.offer e user) := by
  have hkeep : (keepAll slate.filters e.1 user).1 = true ↔ Admissible filters user e.1 := by
    rw [keepAll_fst, hsound.admissible, and_iff_left_iff_imp]
    intro hadm hseen
    rcases hsound.seen _ hseen with hchosen | hother
    · exact hnew hchosen
    · obtain ⟨other, hmem, hid, hnot⟩ := hother
      rw [eq_of_id hnodup hmem he hid] at hnot
      exact hnot hadm
  unfold Slate.offer
  by_cases hadm : Admissible filters user e.1
  · rw [if_pos (hkeep.mpr hadm), if_pos hadm, if_pos hadm]
    refine ⟨rfl, rfl, fun candidate => keepAll_admissible.trans (hsound.admissible _), ?_, ?_⟩
    · intro id hid
      rcases keepAll_seen hid with rfl | hid
      · exact .inl (.head _)
      · exact (hsound.seen id hid).imp_left (List.mem_cons_of_mem _)
    · intro id
      rw [List.mem_cons, hsound.chosen id]
      simp [ids, or_comm]
  · rw [if_neg fun h => hadm (hkeep.mp h), if_neg hadm, if_neg hadm]
    refine ⟨rfl, rfl, fun candidate => keepAll_admissible.trans (hsound.admissible _), ?_,
      hsound.chosen⟩
    intro id hid
    rcases keepAll_seen hid with rfl | hid
    · exact .inr ⟨e, he, rfl, hadm⟩
    · exact hsound.seen id hid

/-- **One loop** appends the first admissible candidates that are wanted. -/
theorem pass_eq (wanted : Candidate → List String → Bool) (want : Candidate → Bool) (limit : Int)
    {rest : List (Scored S)} (hrest : rest.Sublist ranked) {slate : Slate S}
    (hsound : Sound filters user ranked slate)
    (hwanted : ∀ e ∈ rest, ∀ new, e.1.contentId ∉ new →
      wanted e.1 (new ++ slate.chosenIds) = want e.1)
    (hnew : ∀ e ∈ rest, want e.1 = true → e.1.contentId ∉ slate.chosenIds) :
    (pass wanted limit user rest slate).kept =
        slate.kept ++ (rest.filter fun e => want e.1 && decide (Admissible filters user e.1)).take
          (limit.toNat - slate.kept.length) ∧
      Sound filters user ranked (pass wanted limit user rest slate) := by
  induction rest generalizing slate with
  | nil => exact ⟨by simp [pass], hsound⟩
  | cons e rest ih =>
    have hids : (ids (e :: rest)).Nodup := hnodup.sublist (hrest.map _)
    have he : e ∈ ranked := hrest.subset (.head _)
    have hrest' := (List.sublist_cons_self e rest).trans hrest
    unfold pass
    by_cases hfull : limit ≤ slate.kept.length
    · rw [if_pos hfull, show limit.toNat - slate.kept.length = 0 by omega]
      exact ⟨by simp, hsound⟩
    rw [if_neg hfull]
    have hwant := hwanted e (.head _) [] List.not_mem_nil
    rw [List.nil_append] at hwant
    rw [hwant]
    by_cases hyes : want e.1 = true
    · rw [if_pos hyes]
      obtain ⟨hkept, hchosen, hsound'⟩ :=
        offer_eq hnodup hsound he (hnew e (.head _) hyes)
      have hother : ∀ x ∈ rest, x.1.contentId ≠ e.1.contentId := fun x hx heq =>
        (List.nodup_cons.mp hids).1 (List.mem_map.mpr ⟨x, hx, heq⟩)
      by_cases hadm : Admissible filters user e.1
      · rw [if_pos hadm] at hkept hchosen
        obtain ⟨heq, hfinal⟩ := ih hrest' hsound'
          (fun x hx new hx' => by
            rw [hchosen, List.append_cons]
            refine hwanted x (.tail _ hx) _ fun hmem => ?_
            rcases List.mem_append.mp hmem with hmem | hmem
            · exact hx' hmem
            · exact hother x hx (List.mem_singleton.mp hmem))
          (fun x hx hx' => by
            rw [hchosen, List.mem_cons, not_or]
            exact ⟨hother x hx, hnew x (.tail _ hx) hx'⟩)
        refine ⟨?_, hfinal⟩
        rw [heq, hkept, List.filter_cons_of_pos (by simp [hyes, hadm]), List.append_assoc,
          List.length_append, List.length_singleton,
          show limit.toNat - slate.kept.length =
            (limit.toNat - (slate.kept.length + 1)) + 1 by omega,
          List.take_succ_cons, List.singleton_append]
      · rw [if_neg hadm] at hkept hchosen
        obtain ⟨heq, hfinal⟩ := ih hrest' hsound'
          (fun x hx new hx' => by
            rw [hchosen]
            exact hwanted x (.tail _ hx) new hx')
          (fun x hx hx' => by
            rw [hchosen]
            exact hnew x (.tail _ hx) hx')
        refine ⟨?_, hfinal⟩
        rw [heq, hkept, List.filter_cons_of_neg (by simp [hadm])]
    · rw [if_neg hyes]
      obtain ⟨heq, hfinal⟩ := ih hrest' hsound
        (fun x hx => hwanted x (.tail _ hx))
        (fun x hx => hnew x (.tail _ hx))
      refine ⟨?_, hfinal⟩
      rw [heq, List.filter_cons_of_neg (by simp [hyes])]

end Loops

/-! ### Slates -/

/-- The best newcomers, up to a number of reserved slots. -/
def newcomers (newcomer : Candidate → Bool) (reserved : Nat) (ranked : List (Scored S)) :
    List (Scored S) :=
  (ranked.filter fun e => newcomer e.1).take reserved

/-- The best newcomers, and then the best of the others up to `k`. -/
def slateOf (newcomer : Candidate → Bool) (reserved k : Nat) (ranked : List (Scored S)) :
    List (Scored S) :=
  newcomers newcomer reserved ranked ++
    (ranked.filter fun e =>
      !decide (e.1.contentId ∈ ids (newcomers newcomer reserved ranked))).take
        (k - (newcomers newcomer reserved ranked).length)

section Slates

variable {newcomer : Candidate → Bool} {reserved k : Nat} {ranked : List (Scored S)}

theorem newcomers_sublist : (newcomers newcomer reserved ranked).Sublist ranked :=
  (List.take_sublist _ _).trans List.filter_sublist

theorem mem_of_mem_slate {e : Scored S} (h : e ∈ slateOf newcomer reserved k ranked) :
    e ∈ ranked := by
  rcases List.mem_append.mp h with h | h
  · exact newcomers_sublist.subset h
  · exact (List.mem_filter.mp (List.mem_of_mem_take h)).1

theorem slate_length_le (hreserved : reserved ≤ k) :
    (slateOf newcomer reserved k ranked).length ≤ k := by
  have hfirst : (newcomers newcomer reserved ranked).length ≤ reserved := List.length_take_le _ _
  have hrest := List.length_take_le (k - (newcomers newcomer reserved ranked).length)
    (ranked.filter fun e => !decide (e.1.contentId ∈ ids (newcomers newcomer reserved ranked)))
  unfold slateOf
  rw [List.length_append]
  omega

theorem nodup_slate (hnodup : (ids ranked).Nodup) :
    (ids (slateOf newcomer reserved k ranked)).Nodup := by
  unfold ids slateOf
  rw [List.map_append, List.nodup_append]
  refine ⟨hnodup.sublist (newcomers_sublist.map _),
    hnodup.sublist (((List.take_sublist _ _).trans List.filter_sublist).map _), ?_⟩
  intro id hfirst other hother heq
  obtain ⟨e, he, rfl⟩ := List.mem_map.mp hother
  have hnot := (List.mem_filter.mp (List.mem_of_mem_take he)).2
  rw [heq] at hfirst
  rw [decide_eq_true (show e.1.contentId ∈ ids (newcomers newcomer reserved ranked) from hfirst)]
    at hnot
  exact Bool.false_ne_true hnot

theorem mem_slate (hroom : ranked.length ≤ k) {e : Scored S} (h : e ∈ ranked) :
    ∃ found ∈ slateOf newcomer reserved k ranked, found.1.contentId = e.1.contentId := by
  by_cases hfirst : e.1.contentId ∈ ids (newcomers newcomer reserved ranked)
  · obtain ⟨found, hfound, hid⟩ := List.mem_map.mp hfirst
    exact ⟨found, List.mem_append_left _ hfound, hid⟩
  have hshare : (newcomers newcomer reserved ranked).length ≤ (ranked.filter fun e =>
      decide (e.1.contentId ∈ ids (newcomers newcomer reserved ranked))).length := by
    refine List.Sublist.length_le ?_
    have hsub : (newcomers newcomer reserved ranked).Sublist ranked := newcomers_sublist
    have hall := hsub.filter fun e : Scored S =>
      decide (e.1.contentId ∈ ids (newcomers newcomer reserved ranked))
    have hself : ∀ e ∈ newcomers newcomer reserved ranked,
        decide (e.1.contentId ∈ ids (newcomers newcomer reserved ranked)) = true :=
      fun e he => decide_eq_true (List.mem_map.mpr ⟨e, he, rfl⟩)
    rwa [List.filter_eq_self.mpr hself] at hall
  have hparts := List.length_eq_length_filter_add (l := ranked) fun e =>
    decide (e.1.contentId ∈ ids (newcomers newcomer reserved ranked))
  refine ⟨e, List.mem_append_right _ ?_, rfl⟩
  rw [List.take_of_length_le (by omega)]
  exact List.mem_filter.mpr ⟨h, by simpa using hfirst⟩

end Slates

/-! ### Sourcing -/

theorem get?_setdefault (seen : Dict String Candidate) (c : Candidate) (id : String) :
    (setdefault seen c).get? id =
      (seen.get? id).or (if c.contentId = id then some c else none) := by
  unfold setdefault
  by_cases hmem : c.contentId ∈ seen.keys
  · rw [if_pos hmem]
    by_cases hid : c.contentId = id
    · obtain ⟨found, hfound⟩ := Dict.mem_keys_iff.mp hmem
      rw [← hid, hfound]
      rfl
    · rw [if_neg hid, Option.or_none]
  · rw [if_neg hmem, Dict.get?_set]
    by_cases hid : c.contentId = id
    · subst hid
      rw [if_pos rfl, Dict.get?_eq_none_iff.mpr hmem, if_pos rfl, Option.none_or]
    · rw [if_neg fun h => hid h.symm, if_neg hid, Option.or_none]

/-- **Sourcing** keeps the first candidate of an id. -/
theorem get?_union (candidates : List Candidate) (id : String) :
    (union candidates).get? id = candidates.find? fun c => decide (c.contentId = id) := by
  have hfold : ∀ seen : Dict String Candidate, (candidates.foldl setdefault seen).get? id =
      (seen.get? id).or (candidates.find? fun c => decide (c.contentId = id)) := by
    induction candidates with
    | nil => intro seen; simp
    | cons c rest ih =>
      intro seen
      rw [List.foldl_cons, ih, get?_setdefault, Option.or_assoc]
      by_cases hid : c.contentId = id
      · rw [if_pos hid, List.find?_cons_of_pos (by simpa using hid)]
        rfl
      · rw [if_neg hid, List.find?_cons_of_neg (by simpa using hid)]
        rfl
  rw [union, hfold, Dict.get?_empty, Option.none_or]

theorem mem_union {candidates : List Candidate} {c : Candidate} :
    c ∈ (union candidates).values ↔
      candidates.find? (fun other => decide (other.contentId = c.contentId)) = some c := by
  rw [Dict.mem_values_iff]
  constructor
  · rintro ⟨id, hid⟩
    rw [get?_union] at hid
    have hsame : c.contentId = id := by simpa using List.find?_some hid
    rwa [← hsame] at hid
  · exact fun h => ⟨c.contentId, (get?_union _ _).trans h⟩

theorem ids_union (candidates : List Candidate) :
    (union candidates).values.map Candidate.contentId = (union candidates).keys := by
  unfold Dict.values Dict.keys
  rw [List.map_map]
  refine List.map_congr_left fun entry hentry => ?_
  have hget := Dict.get?_eq_some_iff.mpr hentry
  rw [get?_union] at hget
  simpa using List.find?_some hget

/-! ### The two loops -/

variable [LinearOrder S] (r : Recommender S) (user : UserState)

/-- No predicate means no newcomers. -/
def Recommender.newcomer : Candidate → Bool := r.newcomerPredicate.getD fun _ => false

/-- The ranked candidates that the filters accept. -/
def Recommender.accepted : List (Scored S) :=
  (r.ranked user).filter fun e => decide (Admissible r.filters user e.1)

omit [LinearOrder S] in
theorem Sound.start {ranked : List (Scored S)} (hfresh : Fresh filters) :
    Sound filters user ranked (⟨[], [], filters⟩ : Slate S) where
  admissible _ := Iff.rfl
  seen id h := by
    obtain ⟨filter, hfilter, hid⟩ := h
    rw [hfresh filter hfilter] at hid
    exact (List.not_mem_nil hid).elim
  chosen _ := Iff.rfl

theorem explore_eq (hfresh : Fresh r.filters) (hnodup : (ids (r.ranked user)).Nodup) (k : Int) :
    (r.explore user k).kept = newcomers r.newcomer (r.kExplore k).toNat (r.accepted user) ∧
      Sound r.filters user (r.ranked user) (r.explore user k) := by
  have hstart : Sound r.filters user (r.ranked user) (⟨[], [], r.filters⟩ : Slate S) :=
    Sound.start user hfresh
  unfold Recommender.explore newcomers Recommender.newcomer Recommender.accepted
  cases hpred : r.newcomerPredicate with
  | none => exact ⟨by simp, hstart⟩
  | some newcomer =>
    by_cases hslots : 0 < r.kExplore k
    · dsimp only
      rw [if_pos hslots]
      obtain ⟨heq, hsound⟩ := pass_eq hnodup (fun candidate _ => newcomer candidate) newcomer
        (r.kExplore k) (List.Sublist.refl _) hstart (fun _ _ _ _ => rfl)
        (fun _ _ _ => List.not_mem_nil)
      refine ⟨?_, hsound⟩
      rw [heq, List.filter_filter]
      rfl
    · dsimp only
      rw [if_neg hslots, show (r.kExplore k).toNat = 0 by omega]
      exact ⟨by simp, hstart⟩

/-- **The recommended slate**, of the candidates that sourcing leaves. -/
theorem recommend_eq (hfresh : Fresh r.filters) (hnodup : (ids (r.ranked user)).Nodup) (k : Int) :
    r.recommend user k = slateOf r.newcomer (r.kExplore k).toNat k.toNat (r.accepted user) := by
  obtain ⟨hfirst, hsound⟩ := explore_eq r user hfresh hnodup k
  have hmem : ∀ id, decide (id ∈ (r.explore user k).chosenIds) =
      decide (id ∈ ids (r.explore user k).kept) := fun id => by
    rw [decide_eq_decide]
    exact hsound.chosen id
  unfold Recommender.recommend
  rw [(pass_eq hnodup _
    (fun candidate => !decide (candidate.contentId ∈ (r.explore user k).chosenIds)) _
    (List.Sublist.refl _) hsound (fun e _ new hnew => by simp [hnew])
    (fun e _ hwant => by simpa using hwant)).1]
  unfold slateOf
  rw [hfirst] at hmem ⊢
  rw [Recommender.accepted, List.filter_filter]
  simp only [hmem]
  rfl

/-! ### The best admissible slate -/

/-- A highest-scoring one of the admissible candidates that are listed for its id. -/
structure Recommender.Best (candidate : Candidate) : Prop where
  listed : candidate ∈ r.listed user
  admissible : Admissible r.filters user candidate
  highest : ∀ other ∈ r.listed user, other.contentId = candidate.contentId →
    Admissible r.filters user other → r.score user other ≤ r.score user candidate

/-- A ranking of the ids that have an admissible candidate, each with a best one. -/
structure Recommender.Ranking (ranked : List (Scored S)) : Prop where
  scored : ∀ e ∈ ranked, e.2 = r.score user e.1
  best : ∀ e ∈ ranked, r.Best user e.1
  distinct : (ids ranked).Nodup
  complete : ∀ c ∈ r.listed user, Admissible r.filters user c → c.contentId ∈ ids ranked
  falling : ranked.Pairwise fun a b => b.2 ≤ a.2

/-- The slate of a ranking: first the best newcomers, then the best of the others. -/
def Recommender.Right (k : Int) (slate : List (Scored S)) : Prop :=
  ∃ ranked, r.Ranking user ranked ∧
    slate = slateOf r.newcomer (r.kExplore k).toNat k.toNat ranked

/-- The candidate that is listed first for an id is a best one, if the id has an admissible
candidate. -/
def Recommender.FirstIsBest : Prop :=
  ∀ c ∈ r.listed user, Admissible r.filters user c →
    ∀ first, (r.listed user).find? (fun other => decide (other.contentId = c.contentId)) =
      some first → r.Best user first

theorem mem_ranked {e : Scored S} : e ∈ r.ranked user ↔
    e.2 = r.score user e.1 ∧
      (r.listed user).find? (fun other => decide (other.contentId = e.1.contentId)) =
        some e.1 := by
  unfold Recommender.ranked
  rw [List.mem_insertionSort, List.mem_map, ← mem_union]
  constructor
  · rintro ⟨c, hc, rfl⟩
    exact ⟨rfl, hc⟩
  · exact fun h => ⟨e.1, h.2, Prod.ext rfl h.1.symm⟩

theorem ids_ranked_perm : (ids (r.ranked user)).Perm (union (r.listed user)).keys := by
  have hperm := (List.perm_insertionSort (fun a b : Scored S => b.2 ≤ a.2)
    ((union (r.listed user)).values.map fun c => (c, r.score user c))).map
      fun e : Scored S => e.1.contentId
  rw [List.map_map] at hperm
  rwa [← ids_union]

theorem nodup_ranked : (ids (r.ranked user)).Nodup :=
  (ids_ranked_perm r user).nodup_iff.mpr (Dict.keys_nodup _)

theorem falling_ranked : (r.ranked user).Pairwise fun a b => b.2 ≤ a.2 := by
  exact List.pairwise_insertionSort _ _

theorem ranking_accepted (h : r.FirstIsBest user) : r.Ranking user (r.accepted user) where
  scored e he := ((mem_ranked r user).mp (List.mem_filter.mp he).1).1
  best e he := by
    have hparts := List.mem_filter.mp he
    have hfirst := ((mem_ranked r user).mp hparts.1).2
    exact h e.1 (List.mem_of_find?_eq_some hfirst) (of_decide_eq_true hparts.2) _ hfirst
  distinct := (nodup_ranked r user).sublist (List.filter_sublist.map _)
  complete c hc hadm := by
    obtain ⟨first, hfirst⟩ := Option.isSome_iff_exists.mp
      (List.find?_isSome.mpr ⟨c, hc, decide_eq_true rfl⟩ :
        ((r.listed user).find? fun other => decide (other.contentId = c.contentId)).isSome = true)
    have hid : first.contentId = c.contentId := by simpa using List.find?_some hfirst
    refine List.mem_map.mpr ⟨(first, r.score user first), List.mem_filter.mpr ⟨?_, ?_⟩, hid⟩
    · refine (mem_ranked r user).mpr ⟨rfl, ?_⟩
      rw [← hid] at hfirst
      exact hfirst
    · exact decide_eq_true (h c hc hadm first hfirst).admissible
  falling := (falling_ranked r user).sublist List.filter_sublist

theorem right_of_firstIsBest (hfresh : Fresh r.filters) (h : r.FirstIsBest user) (k : Int) :
    r.Right user k (r.recommend user k) :=
  ⟨r.accepted user, ranking_accepted r user h, recommend_eq r user hfresh (nodup_ranked r user) k⟩

theorem firstIsBest_of_right (hfresh : Fresh r.filters) {k : Int}
    (hroom : (union (r.listed user)).keys.length ≤ k) (h : r.Right user k (r.recommend user k)) :
    r.FirstIsBest user := by
  obtain ⟨ranked, hranking, heq⟩ := h
  have hlisted : ids ranked ⊆ (union (r.listed user)).keys := fun id hid => by
    obtain ⟨e, he, rfl⟩ := List.mem_map.mp hid
    obtain ⟨first, hfirst⟩ := Option.isSome_iff_exists.mp (List.find?_isSome.mpr
      ⟨e.1, (hranking.best e he).listed, decide_eq_true rfl⟩ : ((r.listed user).find?
        fun other => decide (other.contentId = e.1.contentId)).isSome = true)
    exact Dict.mem_keys_iff.mpr ⟨first, (get?_union _ _).trans hfirst⟩
  have hlength := (List.subperm_of_subset hranking.distinct hlisted).length_le
  intro c hc hadm first hfirst
  obtain ⟨e, he, hid⟩ := List.mem_map.mp (hranking.complete c hc hadm)
  have hsize : ranked.length ≤ k.toNat := by
    unfold ids at hlength
    rw [List.length_map] at hlength
    omega
  obtain ⟨found, hfound, hsame⟩ := mem_slate hsize he
  -- the entry of the slate is both a best candidate and the first of its id
  have hbest := hranking.best found (mem_of_mem_slate hfound)
  rw [← heq, recommend_eq r user hfresh (nodup_ranked r user)] at hfound
  have hlist := ((mem_ranked r user).mp (List.mem_filter.mp (mem_of_mem_slate hfound)).1).2
  rw [hsame, hid, hfirst, Option.some.injEq] at hlist
  rwa [hlist]

/-! ### The number of reserved slots -/

theorem round_nonpos {q : Rat} (h : q ≤ 0) : round q ≤ 0 := by
  unfold round
  by_cases hneg : q < 0
  · rw [if_pos hneg]
    omega
  · have hzero : q = 0 := le_antisymm h (not_lt.mp hneg)
    subst hzero
    decide

theorem round_le {q : Rat} {n : Nat} (hnonneg : 0 ≤ q) (h : q ≤ n) : round q ≤ n := by
  have hnum : q.num.natAbs ≤ n * q.den := by
    have hle := (Rat.le_iff _ _).mp h
    simp only [Rat.num_natCast, Rat.den_natCast, Nat.cast_one, mul_one] at hle
    have hpos := Rat.num_nonneg.mpr hnonneg
    zify
    rwa [abs_of_nonneg hpos]
  have herror := (DecimalFloat.roundHalfEven_error (n := q.num.natAbs) q.den_pos).2
  unfold round
  by_contra hmore
  have hstep : (n + 1) * q.den ≤ DecimalFloat.roundHalfEven q.num.natAbs q.den * q.den :=
    Nat.mul_le_mul_right _ (by omega)
  rw [Nat.add_mul, Nat.one_mul] at hstep
  have := q.den_pos
  omega

omit [LinearOrder S] in
theorem kExplore_le {k : Int} (hlow : 0 ≤ r.explorationFraction)
    (hhigh : r.explorationFraction ≤ 1) : (r.kExplore k).toNat ≤ k.toNat := by
  unfold Recommender.kExplore
  rcases le_total k 0 with hneg | hpos
  · have hround := round_nonpos (q := k * r.explorationFraction)
      (mul_nonpos_of_nonpos_of_nonneg (by exact_mod_cast hneg) hlow)
    omega
  · obtain ⟨n, rfl⟩ := Int.eq_ofNat_of_zero_le hpos
    have hround := round_le (q := ((n : Int) : Rat) * r.explorationFraction) (n := n)
      (mul_nonneg (by exact_mod_cast hpos) hlow)
      (by simpa using mul_le_of_le_one_right (Nat.cast_nonneg n) hhigh)
    omega

/-- **The recommendation slate**: short, without repetition and admissible on every call, and
the best admissible one on every call exactly when no first candidate hides a better one. -/
theorem slate_best_iff (hfresh : Fresh r.filters) (hlow : 0 ≤ r.explorationFraction)
    (hhigh : r.explorationFraction ≤ 1) :
    (∀ k, (r.recommend user k).length ≤ k.toNat ∧ (ids (r.recommend user k)).Nodup ∧
      ∀ e ∈ r.recommend user k, e.1 ∈ r.listed user ∧ e.2 = r.score user e.1 ∧
        Admissible r.filters user e.1) ∧
    ((∀ k, r.Right user k (r.recommend user k)) ↔ r.FirstIsBest user) ∧
    ∀ k : Int, (union (r.listed user)).keys.length ≤ k →
      (r.Right user k (r.recommend user k) ↔ r.FirstIsBest user) := by
  have heq := recommend_eq r user hfresh (nodup_ranked r user)
  refine ⟨fun k => ⟨?_, ?_, fun e he => ?_⟩, ⟨fun hall => ?_, fun h k => ?_⟩, fun k hroom => ?_⟩
  · rw [heq]
    exact slate_length_le (kExplore_le r hlow hhigh)
  · rw [heq]
    exact nodup_slate ((nodup_ranked r user).sublist (List.filter_sublist.map _))
  · rw [heq] at he
    obtain ⟨hmem, hadm⟩ := List.mem_filter.mp (mem_of_mem_slate he)
    obtain ⟨hscore, hfirst⟩ := (mem_ranked r user).mp hmem
    exact ⟨List.mem_of_find?_eq_some hfirst, hscore, of_decide_eq_true hadm⟩
  · exact firstIsBest_of_right r user hfresh (k := (union (r.listed user)).keys.length) le_rfl
      (hall _)
  · exact right_of_firstIsBest r user hfresh h k
  · exact ⟨firstIsBest_of_right r user hfresh hroom, fun h =>
      right_of_firstIsBest r user hfresh h k⟩

/-! ### Samples -/

/-- One content id from a publisher, with a safety outcome. -/
def sampleCandidate (publisher outcome : String) : Candidate where
  contentId := "clip"
  publisherPeerId := publisher
  title := ""
  tags := []
  safetyOutcome := outcome
  publishedAtUnix := 0
  summary := ""

def sampleUser : UserState := ⟨.empty, [], [], 0⟩

/-- A clip of two publishers; the one that is listed second has the higher score. -/
def sampleRecommender (outcome : String) : Recommender Int where
  sources := [fun _ => [sampleCandidate "first" outcome, sampleCandidate "second" "pass"]]
  trust := .empty
  ranker candidate _ _ := if candidate.publisherPeerId = "second" then 1 else 0
  filters := [.safety, .dismissedPublisher, .dismissedContent [], .dedup []]
  explorationFraction := 0
  newcomerPredicate := none

theorem sample_fresh (outcome : String) : Fresh (sampleRecommender outcome).filters := by
  intro filter hfilter
  simp only [sampleRecommender, List.mem_cons, List.not_mem_nil, or_false] at hfilter
  rcases hfilter with rfl | rfl | rfl | rfl <;> rfl

/-- **A first candidate hides** a better one: a clip is lost when its first publisher's is
blocked, and otherwise represented by a candidate that scores lower. -/
theorem first_candidate_hides :
    ((sampleRecommender "block").recommend sampleUser 1).isEmpty = true ∧
    Admissible (sampleRecommender "block").filters sampleUser (sampleCandidate "second" "pass") ∧
    ((sampleRecommender "pass").recommend sampleUser 1).map
      (fun e => (e.1.publisherPeerId, e.2)) = [("first", 0)] ∧
    (sampleRecommender "pass").score sampleUser (sampleCandidate "second" "pass") = 1 ∧
    ¬ (sampleRecommender "block").Right sampleUser 1
      ((sampleRecommender "block").recommend sampleUser 1) := by
  refine ⟨by decide +kernel, by decide +kernel, by decide +kernel, by decide +kernel, fun h => ?_⟩
  have hfirst := firstIsBest_of_right _ _ (sample_fresh "block") (by decide +kernel) h
  have hbest := hfirst (sampleCandidate "second" "pass") (.tail _ (.head _))
    (by decide +kernel) (sampleCandidate "first" "block") rfl
  exact absurd hbest.admissible (by decide +kernel)

theorem slate_best_iff_sample :
    ((sampleRecommender "pass").recommend sampleUser 1).length ≤ 1 ∧
      ¬ ∀ k, (sampleRecommender "pass").Right sampleUser k
        ((sampleRecommender "pass").recommend sampleUser k) := by
  have hall := slate_best_iff (sampleRecommender "pass") sampleUser (sample_fresh "pass")
    (by decide +kernel) (by decide +kernel)
  refine ⟨(hall.1 1).1, fun hright => ?_⟩
  have hbest := hall.2.1.mp hright (sampleCandidate "second" "pass")
    (.tail _ (.head _)) (by decide +kernel)
    (sampleCandidate "first" "pass") rfl
  exact absurd (hbest.highest (sampleCandidate "second" "pass")
    (.tail _ (.head _)) rfl (by decide +kernel)) (by decide +kernel)

end Recommend
