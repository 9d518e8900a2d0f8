import ProductQuantization.Random.Source
import Std.Data.HashSet

/-!
# Sampling indices without replacement

`sampleIndices` draws `amount` different numbers below `length`.  There are three methods, and the
sizes decide which of them is used.

* **In place.**  Write the numbers down in order and swap a random later one into each of the first
  places.
* **Floyd's.**  Let the candidates grow by one at each step and draw one of them; if it has been
  drawn before, the newest candidate, which cannot have been, is taken instead.  For a short sample
  the newcomer is put in front of the number it collided with, which makes every order equally
  likely; a long one is shuffled at the end.
* **Rejection.**  Draw until the number is new.  Should `Random.patience` draws in a row be old,
  the least number that is new is taken.

Only the first method goes through all the numbers below `length`, and it is chosen only if they are
not many more than those that are drawn.
-/

set_option autoImplicit false

namespace ProductQuantization
namespace IndexSample

variable {σ : Type} [RandomSource σ]

/-- A number from `low` up to below `high`. -/
def between (low high : Nat) (h : low < high) (s : σ) : Fin high × σ :=
  let (k, s) := Random.below32 (high - low) (Nat.sub_pos_of_lt h) s
  (⟨low + k.val, by omega⟩, s)

/-! ## In place -/

/-- Swap a random place from `i` on into place `i`, for `count` places. -/
def shuffleFront {n : Nat} : Nat → Nat → Vector (Fin n) n → σ → Vector (Fin n) n × σ
  | 0, _, v, s => (v, s)
  | count + 1, i, v, s =>
    if h : i < n then
      let (j, s) := between i n h s
      shuffleFront count (i + 1) (v.swap i j.val) s
    else (v, s)

/-- The first `amount` places after swapping. -/
def inPlace (n amount : Nat) (s : σ) : List (Fin n) × σ :=
  let (v, s) := shuffleFront amount 0 (Vector.ofFn id) s
  (v.toList.take amount, s)

/-! ## Floyd's method -/

/-- Put `x` in front of the first occurrence of `y`. -/
def insertBefore {α : Type} [BEq α] (x y : α) : List α → List α
  | [] => []
  | z :: rest => if z == y then x :: z :: rest else z :: insertBefore x y rest

/-- One step: the candidates are the numbers up to `j`. -/
def floydStep {n : Nat} (short : Bool) (drawn : List (Fin n)) (j : Fin n) (s : σ) :
    List (Fin n) × σ :=
  let (t, s) := Random.below32 (j.val + 1) (Nat.succ_pos _) s
  let t : Fin n := ⟨t.val, by omega⟩
  if t ∈ drawn then (if short then insertBefore j t drawn else drawn ++ [j], s)
  else (drawn ++ [t], s)

/-- The steps for the candidates in `js`. -/
def floydFrom {n : Nat} (short : Bool) : List (Fin n) → List (Fin n) → σ → List (Fin n) × σ
  | [], drawn, s => (drawn, s)
  | j :: js, drawn, s =>
    let (drawn, s) := floydStep short drawn j s
    floydFrom short js drawn s

/-- Swap a random place up to `i` into place `i`, for `i` from the given number down to one. -/
def shuffleBack {α : Type} : Nat → Array α → σ → Array α × σ
  | 0, a, s => (a, s)
  | i + 1, a, s =>
    let (j, s) := Random.below32 (i + 2) (Nat.succ_pos _) s
    shuffleBack i (a.swapIfInBounds (i + 1) j.val) s

/-- The last `amount` numbers below `n`. -/
def newcomers (n amount : Nat) (h : amount ≤ n) : List (Fin n) :=
  List.ofFn fun i : Fin amount => ⟨n - amount + i.val, by omega⟩

/-- Floyd's method; samples of fifty and more are shuffled at the end. -/
def floyd (n amount : Nat) (h : amount ≤ n) (s : σ) : List (Fin n) × σ :=
  let short := amount < 50
  let (drawn, s) := floydFrom short (newcomers n amount h) [] s
  if short then (drawn, s)
  else
    let (a, s) := shuffleBack (amount - 1) drawn.toArray s
    (a.toList, s)

/-! ## Rejection -/

/-- The numbers drawn so far. -/
structure Drawn (n : Nat) where
  latestFirst : List (Fin n)
  /-- The same numbers, to look them up. -/
  seen : Std.HashSet (Fin n)
  mem_seen : ∀ k, k ∈ seen ↔ k ∈ latestFirst

/-- Nothing drawn yet. -/
def Drawn.nothing (n : Nat) : Drawn n := ⟨[], ∅, fun k => by simp⟩

/-- One more number. -/
def Drawn.add {n : Nat} (d : Drawn n) (k : Fin n) : Drawn n where
  latestFirst := k :: d.latestFirst
  seen := d.seen.insert k
  mem_seen j := by rw [Std.HashSet.mem_insert, d.mem_seen, List.mem_cons, beq_iff_eq, eq_comm]

/-- Draw until the number is not among those already drawn. -/
def fresh {n : Nat} (hn : 0 < n) (drawn : Drawn n) : Nat → σ → Option (Fin n) × σ
  | 0, s => ((List.finRange n).find? (· ∉ drawn.latestFirst), s)
  | fuel + 1, s =>
    let (k, s) := Random.belowExact n hn s
    if drawn.seen.contains k then fresh hn drawn fuel s else (some k, s)

/-- Draw `count` more numbers. -/
def rejectionFrom {n : Nat} (hn : 0 < n) : Nat → Drawn n → σ → List (Fin n) × σ
  | 0, drawn, s => (drawn.latestFirst.reverse, s)
  | count + 1, drawn, s =>
    match fresh hn drawn Random.patience s with
    | (some k, s) => rejectionFrom hn count (drawn.add k) s
    | (none, s) => (drawn.latestFirst.reverse, s)

/-- Draw `amount` numbers, refusing repetitions. -/
def rejection (n amount : Nat) (hn : 0 < n) (s : σ) : List (Fin n) × σ :=
  rejectionFrom hn amount (.nothing n) s

/-! ## The choice of method -/

/-- The three methods. -/
inductive Method where
  | inPlace
  | floyd
  | rejection
deriving DecidableEq, Repr

/-- The method for a sample of `amount` out of `length`.  The costs are compared in single
precision, unless there are more numbers than thirty-two-bit words can tell apart. -/
def method (length amount : Nat) : Method :=
  if wordValues 32 ≤ length then .rejection
  else
    let few := length < 500000
    let total := Float32.ofNat length
    let a := Float32.ofNat amount
    if amount < 163 then
      let slope : Float32 := if few then 1.6 else 8 / 45
      let base : Float32 := if few then 10 else 70 / 9
      if 11 < amount ∧ total < (base + slope * a) * a then .inPlace else .floyd
    else
      let factor : Float32 := if few then 270 else 330 / 9
      if total < factor * a then .inPlace else .rejection

end IndexSample

/-- Different numbers below `length`, `amount` of them. -/
def sampleIndices {σ : Type} [RandomSource σ] (length amount : Nat) (h : amount < length) (s : σ) :
    List (Fin length) × σ :=
  match IndexSample.method length amount with
  | .inPlace => IndexSample.inPlace length amount s
  | .floyd => IndexSample.floyd length amount (Nat.le_of_lt h) s
  | .rejection => IndexSample.rejection length amount (Nat.zero_lt_of_lt h) s

end ProductQuantization
