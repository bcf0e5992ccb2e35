import Rynmesh.DampedIteration
import Rynmesh.CheckedComputation
import Rynmesh.InsertionDict

/-!
# EigenTrust

`eigentrust.py`: one trust value a peer from pairwise scores, by power iteration
pulled towards pre-trusted peers.

* `normalizePretrust` and `eigentrust` are the functions of the source, in exact
  rational arithmetic; vectors are lists, indexed by the sorted peers;
* `trustMatrix` and `anchor` are the matrix and the vector that its documentation
  speaks of.

The order in which a set lists its members is left to `List.dedup`; it shows only
among peers with the same text.
-/

namespace EigenTrust

open Checked

variable {Peer : Type} [DecidableEq Peer]

/-- Raw scores of a rater for a ratee. -/
abbrev Scores (Peer : Type) := Dict (Peer × Peer) Rat

/-- Prior weights. -/
abbrev Weights (Peer : Type) := Dict Peer Rat

/-! ### The vectors of the source -/

/-- `sum(max(0.0, v) for v in pretrusted.values())`. -/
def positiveTotal (pretrusted : Weights Peer) : Rat :=
  (pretrusted.values.map fun v => max 0 v).sum

/-- `normalize_pretrust`; weights that are missing are like none. -/
def normalizePretrust (pretrusted : Weights Peer) (allPeers : List Peer) : List Rat :=
  if 0 < positiveTotal pretrusted then
    allPeers.map fun peer =>
      max 0 ((pretrusted.get? peer).getD 0) / positiveTotal pretrusted
  else List.replicate allPeers.length (1 / (allPeers.length : Rat))

/-- `v[j] += x`. -/
def addAt (v : List Rat) (j : Nat) (x : Rat) : List Rat := v.modify j (· + x)

/-- `v[j] += c * x` for the items of a row. -/
def addRow (c : Rat) (row : List (Nat × Rat)) (v : List Rat) : List Rat :=
  row.foldl (fun acc item => addAt acc item.1 (c * item.2)) v

/-- The sums of the rows, and the rows as dictionaries. -/
structure Raw where
  rowSum : List Rat
  rows : Dict Nat (Dict Nat Rat)

namespace Raw

def row (raw : Raw) (i : Nat) : Dict Nat Rat := (raw.rows.get? i).getD .empty

/-- One item of the scores. -/
def add (peers : List Peer) (raw : Raw) (item : (Peer × Peer) × Rat) : Raw :=
  if item.2 ≤ 0 then raw
  else
    let i := peers.idxOf item.1.1
    let j := peers.idxOf item.1.2
    { rowSum := addAt raw.rowSum i item.2
      rows := raw.rows.set i
        ((raw.row i).set j (((raw.row i).get? j).getD 0 + item.2)) }

def ofScores (peers : List Peer) (scores : Scores Peer) : Raw :=
  scores.entries.foldl (add peers) ⟨List.replicate peers.length 0, .empty⟩

/-- `C`: the rows of the raters with positive trust, each divided by its sum. -/
def active (raw : Raw) (n : Nat) : List (Nat × Dict Nat Rat) :=
  ((List.range n).filter fun i => 0 < raw.rowSum.getD i 0).map fun i =>
    (i, (raw.row i).mapValues fun v => v / raw.rowSum.getD i 0)

def stranded (raw : Raw) (n : Nat) : List Nat :=
  (List.range n).filter fun i => ¬ 0 < raw.rowSum.getD i 0

end Raw

/-- The items of `p_vec` that are positive. -/
def anchors (pVec : List Rat) : List (Nat × Rat) :=
  ((List.range pVec.length).filter fun j => 0 < pVec.getD j 0).map fun j => (j, pVec.getD j 0)

/-- What the stranded raters contribute, along the pre-trust vector. -/
def addStranded (alpha : Rat) (pVec : List Rat) (stranded : List Nat) (t v : List Rat) :
    List Rat :=
  let sStranded := (stranded.map fun i => t.getD i 0).sum
  if 0 < sStranded then addRow ((1 - alpha) * sStranded) (anchors pVec) v else v

/-- What the active raters contribute, along their rows. -/
def addActive (alpha : Rat) (active : List (Nat × Dict Nat Rat)) (t v : List Rat) : List Rat :=
  active.foldl (fun acc row =>
    if t.getD row.1 0 = 0 then acc
    else addRow ((1 - alpha) * t.getD row.1 0) row.2.entries acc) v

/-- `new_t`, divided by its sum. -/
def iterate (alpha : Rat) (pVec : List Rat) (raw : Raw) (t : List Rat) : List Rat :=
  let newT := addActive alpha (raw.active pVec.length) t
    (addStranded alpha pVec (raw.stranded pVec.length) t (pVec.map fun x => alpha * x))
  if 0 < newT.sum then newT.map fun x => x / newT.sum else newT

/-- `delta`. -/
def delta (newT t : List Rat) : Rat := (List.zipWith (fun x y => |x - y|) newT t).sum

/-- The iteration, and whether it stopped because a step was short. -/
def loop (step : List Rat → List Rat) (epsilon : Rat) : Nat → List Rat → List Rat × Bool
  | 0, t => (t, false)
  | rounds + 1, t =>
      if delta (step t) t < epsilon then (step t, true) else loop step epsilon rounds (step t)

/-! ### Peers -/

/-- The arguments of a call; no prior weights are an empty dictionary. -/
structure Input (Peer : Type) where
  scores : Scores Peer
  pretrusted : Weights Peer
  alpha : Rat
  epsilon : Rat
  maxIter : Int
  extraPeers : List Peer

namespace Input

variable (input : Input Peer)

/-- `universe`: every peer that the arguments name. -/
def members : List Peer :=
  (input.extraPeers ++ input.scores.keys.flatMap (fun pair => [pair.1, pair.2]) ++
    input.pretrusted.keys).dedup

/-- `peers`: sorted by their texts. -/
def peers (str : Peer → String) : List Peer :=
  input.members.insertionSort fun a b => str a ≤ str b

theorem peers_nodup (str : Peer → String) : (input.peers str).Nodup :=
  (List.perm_insertionSort _ _).nodup_iff.mpr (List.nodup_dedup _)

/-- `{peers[i]: t[i] for i in range(n)}`. -/
def answer (str : Peer → String) (t : List Rat) : Dict Peer Rat where
  entries := (input.peers str).zip t
  nodup := by
    have hprefix : ((input.peers str).zip t).map Prod.fst <+: input.peers str := by
      generalize input.peers str = peers
      induction peers generalizing t with
      | nil => exact List.prefix_rfl
      | cons a rest ih =>
          cases t with
          | nil => exact List.nil_prefix
          | cons x t => exact List.prefix_cons_inj a |>.mpr (ih t)
    exact (input.peers_nodup str).sublist hprefix.sublist

end Input

/-- What a call returns, and whether its loop was left because a step was short. -/
structure Outcome (Peer : Type) where
  trust : Dict Peer Rat
  converged : Bool

/-- `eigentrust`. -/
def eigentrust (str : Peer → String) (input : Input Peer) : Except String (Outcome Peer) := do
  require "alpha must be in [0, 1]" (0 ≤ input.alpha ∧ input.alpha ≤ 1)
  require "epsilon must be positive" (0 < input.epsilon)
  require "max_iter must be >= 1" (1 ≤ input.maxIter)
  if input.members = [] then return ⟨.empty, false⟩
  else
    let peers := input.peers str
    let pVec := normalizePretrust input.pretrusted peers
    let result := loop (iterate input.alpha pVec (.ofScores peers input.scores)) input.epsilon
      input.maxIter.toNat pVec
    return ⟨input.answer str result.1, result.2⟩

end EigenTrust
