import Rynmesh.DecimalRounding
import Rynmesh.InsertionDict

/-!
# The content recommender

`Recommender.recommend` of `recommender.py`: sourcing, ranking, filtering.

* `union` keeps the first candidate of every content id;
* `Filter.keep` is one filter, with the ids that a `DedupFilter` has seen, and
  `keepAll` the filters in their order, up to the first that refuses;
* `pass` is one loop over the ranked candidates, and `recommend` has two: one for
  the newcomers' slots and one that fills the slate.

Scores are elements of a linear order, and the share of the newcomers is exact.
-/

namespace Recommend

structure Candidate where
  contentId : String
  publisherPeerId : String
  title : String
  tags : List String
  safetyOutcome : String
  publishedAtUnix : Rat
  summary : String

structure UserState where
  likedTags : Dict String Rat
  dismissedPublishers : List String
  fetchedContentIds : List String
  nowUnix : Rat

/-! ### Filters -/

/-- The filters of the module, a `DedupFilter` with the ids it has seen. -/
inductive Filter
  | safety
  | dedup (seen : List String)
  | dismissedContent (contentIds : List String)
  | dismissedPublisher

/-- One filter's answer, and the filter afterwards. -/
def Filter.keep : Filter → Candidate → UserState → Bool × Filter
  | .safety, candidate, _ => (candidate.safetyOutcome != "block", .safety)
  | .dedup seen, candidate, user =>
      if candidate.contentId ∈ seen then (false, .dedup seen)
      else if candidate.contentId ∈ user.fetchedContentIds then (false, .dedup seen)
      else (true, .dedup (candidate.contentId :: seen))
  | .dismissedContent contentIds, candidate, _ =>
      (!decide (candidate.contentId ∈ contentIds), .dismissedContent contentIds)
  | .dismissedPublisher, candidate, user =>
      (!decide (candidate.publisherPeerId ∈ user.dismissedPublishers), .dismissedPublisher)

/-- `all(flt.keep(cand, user) for flt in self.filters)`: the filters after the first that
refuses are not asked. -/
def keepAll : List Filter → Candidate → UserState → Bool × List Filter
  | [], _, _ => (true, [])
  | filter :: filters, candidate, user =>
      if (filter.keep candidate user).1 = true then
        ((keepAll filters candidate user).1,
          (filter.keep candidate user).2 :: (keepAll filters candidate user).2)
      else (false, (filter.keep candidate user).2 :: filters)

/-! ### The recommender -/

variable {S : Type*} [LinearOrder S]

structure Recommender (S : Type*) where
  sources : List (UserState → List Candidate)
  trust : Dict String Rat
  ranker : Candidate → UserState → Rat → S
  filters : List Filter
  explorationFraction : Rat
  newcomerPredicate : Option (Candidate → Bool)

/-- A candidate with its score. -/
abbrev Scored (S : Type*) := Candidate × S

/-- `round` of Python, half to even. -/
def round (q : Rat) : Int :=
  if q < 0 then -(DecimalFloat.roundHalfEven q.num.natAbs q.den)
  else DecimalFloat.roundHalfEven q.num.natAbs q.den

/-- `seen.setdefault(cand.content_id, cand)`. -/
def setdefault (seen : Dict String Candidate) (candidate : Candidate) : Dict String Candidate :=
  if candidate.contentId ∈ seen.keys then seen else seen.set candidate.contentId candidate

/-- Sourcing: the first occurrence of an id wins. -/
def union (candidates : List Candidate) : Dict String Candidate :=
  candidates.foldl setdefault .empty

/-- What a call has so far: the slate, the ids on it and the filters. -/
structure Slate (S : Type*) where
  kept : List (Scored S)
  chosenIds : List String
  filters : List Filter

/-- `kept.append((cand, score))`, if every filter keeps the candidate. -/
def Slate.offer (slate : Slate S) (entry : Scored S) (user : UserState) : Slate S :=
  if (keepAll slate.filters entry.1 user).1 = true then
    ⟨slate.kept ++ [entry], entry.1.contentId :: slate.chosenIds,
      (keepAll slate.filters entry.1 user).2⟩
  else { slate with filters := (keepAll slate.filters entry.1 user).2 }

/-- A loop over ranked candidates that ends once the slate has `limit` of them; it leaves out
those that are not `wanted`, given the ids chosen so far. -/
def pass (wanted : Candidate → List String → Bool) (limit : Int) (user : UserState) :
    List (Scored S) → Slate S → Slate S
  | [], slate => slate
  | entry :: rest, slate =>
      if limit ≤ slate.kept.length then slate
      else if wanted entry.1 slate.chosenIds = true then
        pass wanted limit user rest (slate.offer entry user)
      else pass wanted limit user rest slate

variable (r : Recommender S) (user : UserState)

/-- The candidates of all sources, in the order in which they are listed. -/
def Recommender.listed : List Candidate := r.sources.flatMap fun source => source user

/-- A candidate's score: trust is that of its publisher, by default `0.0`. -/
def Recommender.score (candidate : Candidate) : S :=
  r.ranker candidate user ((r.trust.get? candidate.publisherPeerId).getD 0)

/-- The candidates that are left of the sources, by falling score. -/
def Recommender.ranked : List (Scored S) :=
  ((union (r.listed user)).values.map fun candidate =>
    (candidate, r.score user candidate)).insertionSort fun a b => b.2 ≤ a.2

/-- The number of slots for newcomers. -/
def Recommender.kExplore (k : Int) : Int := round (k * r.explorationFraction)

/-- The loop for the newcomers' slots. -/
def Recommender.explore (k : Int) : Slate S :=
  match r.newcomerPredicate with
  | none => ⟨[], [], r.filters⟩
  | some newcomer =>
      if 0 < r.kExplore k then
        pass (fun candidate _ => newcomer candidate) (r.kExplore k) user (r.ranked user)
          ⟨[], [], r.filters⟩
      else ⟨[], [], r.filters⟩

def Recommender.recommend (k : Int) : List (Scored S) :=
  (pass (fun candidate chosenIds => !decide (candidate.contentId ∈ chosenIds)) k user
    (r.ranked user) (r.explore user k)).kept

end Recommend
