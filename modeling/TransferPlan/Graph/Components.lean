/-!
# Strongly connected components

A directed graph is given by the successors of each node.  One depth-first search numbers the
nodes as it enters them and keeps the entered nodes whose component is still open on a stack.  A
node from which no earlier open node can be reached closes its component: the nodes on the stack
down to it.  Components are numbered as they are closed, so a component comes after all others
that it reaches.

The search goes by single steps.  The nodes that it has entered and not left wait in a list, each
with the successors that it has still to look at, so that it goes on where it stopped.  Every step
uses up one successor of a node or leaves one (`Walk.work_next`), so the search ends.
-/

namespace TransferPlan

/-- A directed graph: the successors of each node.  Successors outside the graph are ignored. -/
abbrev Graph := Array (List Nat)

namespace Graph

/-- The successors of a node that are nodes. -/
def successors (g : Graph) (v : Nat) : List Nat := (g.getD v []).filter (· < g.size)

/-! ## The state of a search -/

/-- How far a search has come. -/
structure Search where
  /-- The number that the next node entered is given. -/
  next : Nat
  /-- The number of each node entered. -/
  entry : Array (Option Nat)
  /-- The nodes entered whose component is open, the latest first. -/
  stack : List Nat
  /-- The number of components closed. -/
  closed : Nat
  /-- The component of each node that is in a closed one. -/
  component : Array (Option Nat)

namespace Search

/-- The state before the search of a graph with `n` nodes. -/
def start (n : Nat) : Search :=
  ⟨0, Array.replicate n none, [], 0, Array.replicate n none⟩

def entry? (s : Search) (v : Nat) : Option Nat := s.entry.getD v none

def component? (s : Search) (v : Nat) : Option Nat := s.component.getD v none

/-- Enters a node. -/
def enter (s : Search) (v : Nat) : Search :=
  { s with
    next := s.next + 1
    entry := s.entry.setIfInBounds v (some s.next)
    stack := v :: s.stack }

/-- The stack cut after a node: down to the node, and below it. -/
def cutAfter (v : Nat) : List Nat → List Nat × List Nat
  | [] => ([], [])
  | w :: rest => if w = v then ([w], rest) else ((w :: (cutAfter v rest).1), (cutAfter v rest).2)

/-- Closes the component of a node: the nodes on the stack down to it. -/
def close (s : Search) (v : Nat) : Search :=
  let (members, rest) := cutAfter v s.stack
  { s with
    stack := rest
    closed := s.closed + 1
    component := members.foldl (fun c w => c.setIfInBounds w (some s.closed)) s.component }

end Search

/-! ## Steps of a walk -/

/-- A node that has been entered and not left. -/
structure Frame where
  node : Nat
  /-- The number that the node was given. -/
  number : Nat
  /-- The successors that have not been looked at. -/
  rest : List Nat
  /-- The least number of an open node that was found reachable. -/
  low : Nat

/-- A search on its way: the nodes that it has entered and not left, the innermost first. -/
structure Walk where
  frames : List Frame
  search : Search

namespace Walk

/-- Enters a node from the innermost one. -/
def enter (g : Graph) (v : Nat) (frames : List Frame) (s : Search) : Walk :=
  ⟨⟨v, s.next, g.successors v, s.next⟩ :: frames, s.enter v⟩

/-- What is reachable from a node that is left is reachable from the innermost one. -/
def passLow (low : Nat) : List Frame → List Frame
  | [] => []
  | f :: frames => { f with low := min f.low low } :: frames

/-- One step: the innermost node looks at its next successor, and is left when there is none. -/
def next (g : Graph) : Walk → Walk
  | ⟨[], s⟩ => ⟨[], s⟩
  | ⟨⟨v, number, [], low⟩ :: frames, s⟩ =>
    ⟨passLow low frames, if low = number then s.close v else s⟩
  | ⟨⟨v, number, w :: rest, low⟩ :: frames, s⟩ =>
    match s.entry[w]? with
    | some none => enter g w (⟨v, number, rest, low⟩ :: frames) s
    | some (some n) =>
      ⟨⟨v, number, rest, if (s.component? w).isNone then min low n else low⟩ :: frames, s⟩
    | none => ⟨⟨v, number, rest, low⟩ :: frames, s⟩

/-! ## The end of a walk -/

/-- The steps that the nodes below `n` will take once they are entered: one for each successor, and
one to be left. -/
def ahead (g : Graph) (s : Search) : Nat → Nat
  | 0 => 0
  | n + 1 => ahead g s n + if Option.isNone <| s.entry? n then (g.successors n).length + 1 else 0

/-- The steps that the nodes entered and not left will take. -/
def waiting : List Frame → Nat
  | [] => 0
  | f :: frames => f.rest.length + 1 + waiting frames

/-- The steps that a walk has before it. -/
def work (g : Graph) (w : Walk) : Nat :=
  waiting w.frames + ahead g w.search w.search.entry.size

theorem ahead_congr (g : Graph) {s t : Search} (h : t.entry = s.entry) :
    ∀ n, ahead g t n = ahead g s n
  | 0 => rfl
  | n + 1 => by rw [ahead, ahead, ahead_congr g h n, Search.entry?, h, Search.entry?]

theorem ahead_enter (g : Graph) {s : Search} {v : Nat} (h : s.entry[v]? = some none) :
    ∀ n, ahead g (s.enter v) n + (if v < n then (g.successors v).length + 1 else 0) = ahead g s n
  | 0 => rfl
  | n + 1 => by
    have ih := ahead_enter g h n
    have hv : v < s.entry.size := (Array.getElem?_eq_some_iff.1 h).1
    have hentry : Search.entry? (s.enter v) n = if v = n then some s.next else s.entry? n := by
      simp only [Search.enter, Search.entry?, Array.getD_eq_getD_getElem?,
        Array.getElem?_setIfInBounds]
      split <;> simp
    have hnone : s.entry? v = none := by simp [Array.getD_eq_getD_getElem?, Search.entry?, h]
    rw [ahead, ahead, hentry]
    by_cases hvn : v = n
    · subst hvn
      simp [hnone] at ih ⊢
      omega
    · have hlt : v < n + 1 ↔ v < n := by omega
      simp [hvn, hlt]
      omega

theorem waiting_passLow (low : Nat) (frames : List Frame) :
    waiting (passLow low frames) = waiting frames := by
  cases frames <;> rfl

/-- Every step of a walk takes one off its work. -/
theorem work_next (g : Graph) {w : Walk} (h : w.frames ≠ []) : (w.next g).work g + 1 = w.work g := by
  obtain ⟨frames, s⟩ := w
  match frames with
  | [] => exact absurd rfl h
  | ⟨v, number, [], low⟩ :: frames =>
    have hentry : (if low = number then s.close v else s).entry = s.entry := by split <;> rfl
    simp only [next, work, waiting_passLow, hentry, ahead_congr g hentry, waiting, List.length_nil]
    omega
  | ⟨v, number, w :: rest, low⟩ :: frames =>
    rw [next]
    split
    · next hw =>
      have hlt : w < s.entry.size := (Array.getElem?_eq_some_iff.1 hw).1
      have hahead := ahead_enter g hw s.entry.size
      rw [if_pos hlt] at hahead
      have hsize : (s.enter w).entry.size = s.entry.size := Array.size_setIfInBounds
      simp only [enter, work, hsize, waiting, List.length_cons]
      omega
    all_goals
      simp only [work, waiting, List.length_cons]
      omega

/-- Goes on until no node is left to leave. -/
def finish (g : Graph) (w : Walk) : Search :=
  if w.frames = [] then w.search else finish g (w.next g)
termination_by w.work g
decreasing_by
  have := work_next g ‹¬ w.frames = []›
  omega

end Walk

/-! ## The search -/

/-- Searches from a node unless it has been entered. -/
def visitRoot (g : Graph) (s : Search) (v : Nat) : Search :=
  match s.entry? v with
  | none => (Walk.enter g v [] s).finish g
  | some _ => s

/-- The state after the search from every node. -/
def search (g : Graph) : Search :=
  (List.range g.size).foldl g.visitRoot (Search.start g.size)

/-- The number of the component of each node. -/
def components (g : Graph) : List Nat :=
  let s := g.search
  (List.range g.size).map fun v => (s.component? v).getD 0

/-- The components as lists of ascending nodes, in the order of their first nodes. -/
def componentLists (g : Graph) : List (List Nat) :=
  let ids := g.components
  let numbered := ids.zipIdx
  ids.eraseDups.map fun c => (numbered.filter (·.1 == c)).map (·.2)

end Graph

end TransferPlan
