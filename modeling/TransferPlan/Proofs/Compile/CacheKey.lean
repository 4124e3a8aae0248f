import TransferPlan.Compile.Bridge
import TransferPlan.Proofs.Lists
import Mathlib.Data.Set.Function

/-!
# Keys of cached columns

The key of a column is the digest of four names with dots between them, and the names may hold dots
of their own.  As long as the digest tells texts apart, two columns share a key exactly if their
names, cut at the dots, have the same pieces in the same order (`keys_told_apart_iff`).  This cannot
be so of two columns whose jobs, runs and columns hold equally many dots, but it can be so of two
columns of one run (`dotted_column_shares_key`).
-/

namespace TransferPlan

/-- A column of a table in a run. -/
structure CachedColumn where
  id : RunId
  table : String
  column : String
deriving DecidableEq

namespace CachedColumn

variable {a b : CachedColumn}

/-- The text that names the column. -/
def name (a : CachedColumn) : String := cacheName a.id a.table a.column

/-- The key under which its values are cached. -/
def key (a : CachedColumn) : String := cacheKey a.id a.table a.column

/-- The four names cut at their dots. -/
def pieces (a : CachedColumn) : List (List Char) :=
  [a.id.job, a.id.run, a.table, a.column].flatMap (·.toList.splitOn '.')

/-- The jobs, the runs and the columns hold equally many dots. -/
structure SameDots (a b : CachedColumn) : Prop where
  job : a.id.job.toList.count '.' = b.id.job.toList.count '.'
  run : a.id.run.toList.count '.' = b.id.run.toList.count '.'
  column : a.column.toList.count '.' = b.column.toList.count '.'

theorem splitOn_name (a : CachedColumn) : a.name.toList.splitOn '.' = a.pieces := by
  have hname : a.name.toList = a.id.job.toList ++ '.' :: (a.id.run.toList ++ '.' ::
      (a.table.toList ++ '.' :: a.column.toList)) := by
    simp [name, cacheName]
  rw [hname, splitOn_append_cons, splitOn_append_cons, splitOn_append_cons]
  simp [pieces]

theorem name_eq_iff : a.name = b.name ↔ a.pieces = b.pieces := by
  rw [← splitOn_name, ← splitOn_name, splitOn_inj, String.toList_inj]

/-- Where the dots are spread alike, the pieces give back the four names. -/
theorem eq_of_pieces_eq (hdots : a.SameDots b) (h : a.pieces = b.pieces) : a = b := by
  have hlength : ∀ {s t : String}, s.toList.count '.' = t.toList.count '.' →
      (s.toList.splitOn '.').length = (t.toList.splitOn '.').length := fun hs => by
    rw [length_splitOn, length_splitOn, hs]
  have hsplit : ∀ {s t : String}, s.toList.splitOn '.' = t.toList.splitOn '.' → s = t := fun hs =>
    String.toList_inj.1 (splitOn_inj.1 hs)
  simp only [pieces, List.flatMap_cons, List.flatMap_nil, List.append_nil] at h
  obtain ⟨hjob, h⟩ := List.append_inj h (hlength hdots.job)
  obtain ⟨hrun, h⟩ := List.append_inj h (hlength hdots.run)
  obtain ⟨htable, hcolumn⟩ := List.append_inj' h (hlength hdots.column)
  cases a
  cases b
  rw [mk.injEq, RunId.mk.injEq]
  exact ⟨⟨hsplit hjob, hsplit hrun⟩, hsplit htable, hsplit hcolumn⟩

variable {texts : Set String}

/-- If no two of some texts have the same digest, two columns that are named by them have the same
key exactly if their names have the same pieces.  If moreover their jobs, runs and columns hold
equally many dots, only a column itself has its key. -/
theorem keys_told_apart_iff (hdigest : Set.InjOn Digest.sha256 texts) (ha : a.name ∈ texts)
    (hb : b.name ∈ texts) :
    (a.key = b.key ↔ a.pieces = b.pieces) ∧ (a.SameDots b → (a.key = b.key ↔ a = b)) := by
  have hkey : a.key = b.key ↔ a.pieces = b.pieces := (hdigest.eq_iff ha hb).trans name_eq_iff
  refine ⟨hkey, fun hdots => ?_⟩
  rw [hkey]
  exact ⟨eq_of_pieces_eq hdots, fun h => h ▸ rfl⟩

/-- A column of the table of orders of a run. -/
def ofOrders (column : String) : CachedColumn := ⟨⟨"job", "run"⟩, "public.order", column⟩

theorem keys_told_apart_orders :
    Set.InjOn Digest.sha256 {(ofOrders "buyer").name, (ofOrders "seller").name} ∧
      (ofOrders "buyer").SameDots (ofOrders "seller") ∧
      (ofOrders "buyer").key ≠ (ofOrders "seller").key := by
  have hdigest : Set.InjOn Digest.sha256 {(ofOrders "buyer").name, (ofOrders "seller").name} := by
    rw [Set.injOn_pair]
    intro h
    exact absurd h (by decide +kernel)
  have hdots : (ofOrders "buyer").SameDots (ofOrders "seller") := ⟨rfl, rfl, by decide⟩
  have hiff := (keys_told_apart_iff hdigest (Set.mem_insert _ _)
    (Set.mem_insert_of_mem _ rfl)).2 hdots
  exact ⟨hdigest, hdots, mt hiff.1 (by decide)⟩

/-- A column with a dot in its name and a column of a table with that dot in its name have the same
key, whatever the digest. -/
theorem dotted_column_shares_key :
    let a : CachedColumn := ⟨⟨"job", "run"⟩, "public.order", "line.id"⟩
    let b : CachedColumn := ⟨⟨"job", "run"⟩, "public.order.line", "id"⟩
    a ≠ b ∧ (∀ s ∈ [a.id.job, a.id.run, a.table, a.column, b.table, b.column], s ≠ "") ∧
      a.name = b.name ∧ a.key = b.key := by
  intro a b
  have hname : a.name = b.name := name_eq_iff.2 (by decide)
  exact ⟨by decide, by decide, hname, congrArg Digest.sha256 hname⟩

end CachedColumn

end TransferPlan
