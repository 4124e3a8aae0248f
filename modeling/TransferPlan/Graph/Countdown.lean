/-!
# Putting items in line

Items are numbered, and some of them must come before others.  For each item the predecessors that
are not in line yet are counted.  An item whose count is zero joins a queue; the least item of the
queue is put in line next, and the counts of its successors go down by one.  Items on a circle never
come to zero, nor do those behind one.

Every step takes one item off the queue, and an item joins it when its count leaves the positive
numbers (`Countdown.work_next`), so the queue becomes empty.
-/

namespace TransferPlan

/-- The predecessors of each item, each of them once. -/
abbrev Precedence := Array (List Nat)

namespace Precedence

/-- Adds an item to the successors of each of its predecessors. -/
def link (successors : Array (List Nat)) (v : Nat) (predecessors : List Nat) : Array (List Nat) :=
  predecessors.foldl (fun s u => s.modify u (· ++ [v])) successors

/-- The successors of each item. -/
def successors (p : Precedence) : Array (List Nat) :=
  p.toList.zipIdx.foldl (fun s e => link s e.2 e.1) (Array.replicate p.size [])

end Precedence

/-- How far the items have been put in line. -/
structure Countdown where
  /-- For each item, how many of its predecessors are not in line. -/
  degree : Array Int
  /-- The items that wait for no other, in ascending order. -/
  ready : List Nat
  /-- The items in line. -/
  line : List Nat

namespace Countdown

/-- Adds an item to a queue that is in ascending order. -/
def push (v : Nat) : List Nat → List Nat
  | [] => [v]
  | w :: queue => if v ≤ w then v :: w :: queue else w :: push v queue

theorem length_push (v : Nat) : ∀ queue : List Nat, (push v queue).length = queue.length + 1
  | [] => rfl
  | w :: queue => by
    rw [push]
    split <;> simp [length_push v queue]

/-- The state before any item is in line. -/
def start (p : Precedence) : Countdown :=
  let degree := p.map fun predecessors => (predecessors.length : Int)
  ⟨degree, (List.range p.size).filter fun v => degree[v]? == some 0, []⟩

/-- A predecessor of the item has been put in line. -/
def release (c : Countdown) (v : Nat) : Countdown :=
  if h : v < c.degree.size then
    let d := c.degree[v] - 1
    { c with
      degree := c.degree.set v d
      ready := if d = 0 then push v c.ready else c.ready }
  else c

/-- Puts the first item of the queue in line. -/
def next (successors : Array (List Nat)) (c : Countdown) : Countdown :=
  match c.ready with
  | [] => c
  | v :: rest =>
    (successors.getD v []).foldl release { c with ready := rest, line := c.line ++ [v] }

/-! ## The end of the queue -/

/-- The items that are in the queue or may still join it. -/
def work (c : Countdown) : Nat := c.ready.length + c.degree.countP (0 < ·)

/-- An item that joins the queue is no longer counted. -/
theorem work_release (c : Countdown) (v : Nat) : (c.release v).work = c.work := by
  unfold release
  split
  · next h =>
    have hpos : 0 < c.degree[v] → 0 < c.degree.countP (0 < ·) := fun hv =>
      Array.countP_pos_iff.2 ⟨_, Array.getElem_mem h, decide_eq_true hv⟩
    simp only [work, Array.countP_set h, decide_eq_true_eq]
    by_cases hd : c.degree[v] - 1 = 0
    · have hone : c.degree[v] = 1 := by omega
      have := hpos (by omega)
      simp [hone, length_push]
      omega
    · rw [if_neg hd]
      split <;> split <;> omega
  · rfl

theorem work_foldl_release (items : List Nat) :
    ∀ c : Countdown, (items.foldl release c).work = c.work := by
  induction items with
  | nil => exact fun _ => rfl
  | cons v items ih => exact fun c => (ih _).trans (work_release c v)

/-- Every step takes one off the work. -/
theorem work_next (successors : Array (List Nat)) {c : Countdown} (h : c.ready ≠ []) :
    (c.next successors).work + 1 = c.work := by
  unfold next
  split
  · next hr => exact absurd hr h
  · next v rest hr =>
    rw [work_foldl_release]
    simp only [work, hr, List.length_cons]
    omega

/-- Goes on until the queue is empty. -/
def finish (successors : Array (List Nat)) (c : Countdown) : Countdown :=
  if c.ready = [] then c else finish successors (c.next successors)
termination_by c.work
decreasing_by
  have := work_next successors ‹¬ c.ready = []›
  omega

/-- Puts the items in line. -/
def run (p : Precedence) : Countdown := (start p).finish p.successors

/-- The items that still wait for others. -/
def waiting (c : Countdown) : List Nat :=
  (List.range c.degree.size).filter fun v => c.degree[v]?.any (0 < ·)

end Countdown

end TransferPlan
