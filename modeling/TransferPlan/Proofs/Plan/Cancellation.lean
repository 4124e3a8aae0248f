import TransferPlan.Proofs.Plan.Definitions

/-!
# Cancelled compilations

A compilation looks before each pass whether it has been cancelled, and nowhere else.  Up to the
first time that it has been, it goes on as if it could not be; then it gives no plan, whatever it
has compiled so far (`cancelled_build_gives_nothing`).
-/

namespace TransferPlan

/-! ## How a compilation moves the session -/

namespace Session

/-- What has been asked for before comes first in what has been asked for. -/
def Extends (s s' : Session) : Prop := s.asked <+: s'.asked

/-- In between nobody has looked whether the compilation is cancelled. -/
structure Continues (s s' : Session) : Prop where
  asked : s.Extends s'
  checks : s'.checks = s.checks

instance : IsPreorder Session Extends where
  refl s := List.prefix_refl s.asked
  trans _ _ _ h h' := List.IsPrefix.trans h h'

instance : IsPreorder Session Continues where
  refl s := ⟨List.prefix_refl s.asked, rfl⟩
  trans _ _ _ h h' := ⟨List.IsPrefix.trans h.asked h'.asked, h'.checks.trans h.checks⟩

/-- The session after one more look. -/
def looked (s : Session) : Session := { s with checks := s.checks + 1 }

end Session

namespace Compile

/-- However the compilation ends, the session after it is related to the one before. -/
def Moves {α : Type} (R : Session → Session → Prop) (x : Compile α) : Prop :=
  ∀ s, R s (x.run.run s).2

variable {α β : Type}

theorem run_bind_congr {x y : Compile α} {f : α → Compile β} {s : Session}
    (h : x.run.run s = y.run.run s) : (x >>= f).run.run s = (y >>= f).run.run s := by
  rw [ExceptT.run_bind, StateT.run_bind, ExceptT.run_bind, StateT.run_bind, h]

section Moves

variable {R : Session → Session → Prop} [IsPreorder Session R] {x : Compile α} {f : α → Compile β}

theorem moves_of_run_eq {r : Session → Except CompileError α} (h : ∀ s, x.run.run s = (r s, s)) :
    Moves R x := fun s => by
  rw [h]
  exact Std.Refl.refl s

theorem Moves.bind (hx : Moves R x) (hf : ∀ a, Moves R (f a)) : Moves R (x >>= f) := by
  intro s
  have hxs := hx s
  rcases hrun : x.run.run s with ⟨e | a, s₁⟩
  · rw [run_bind_of_error hrun]
    rwa [hrun] at hxs
  · rw [run_bind_of_ok hrun]
    rw [hrun] at hxs
    exact IsTrans.trans _ _ _ hxs (hf a s₁)

theorem Moves.mapM {l : List α} (h : ∀ a ∈ l, Moves R (f a)) : Moves R (l.mapM f) := by
  induction l with
  | nil => exact moves_of_run_eq fun _ => rfl
  | cons a l ih =>
      have hl := ih fun b hb => h b (List.mem_cons_of_mem _ hb)
      rw [List.mapM_cons]
      exact (h a List.mem_cons_self).bind fun b => hl.bind fun bs => moves_of_run_eq fun _ => rfl

end Moves

end Compile

/-! ## Asking for definitions -/

section Asking

open Compile

/-- The ids asked for are kept, and the id of the reference may be added. -/
theorem Lookup.prefix_resolve (lookup : Lookup) (t : Transformer) (asked : List String) :
    asked <+: (lookup.resolve t asked).2 := by
  unfold resolve
  split
  · split
    · exact List.prefix_refl asked
    · exact List.prefix_append asked _
  · exact List.prefix_refl asked

theorem moves_asking (lookup : Lookup) (t : Transformer) :
    Moves Session.Continues (Resolver.asking lookup t) := by
  intro s
  rw [run_asking_eq_resolve]
  exact ⟨lookup.prefix_resolve t s.asked, rfl⟩

theorem moves_remembering (lookup : Lookup) (t : Transformer) :
    Moves Session.Continues (Resolver.remembering lookup t) := by
  unfold Resolver.remembering
  split
  · refine .bind (moves_of_run_eq fun _ => rfl) fun known => ?_
    split
    · exact moves_of_run_eq fun _ => rfl
    · refine (moves_asking lookup t).bind fun found => ?_
      refine .bind (fun s => ?_) fun _ => moves_of_run_eq fun _ => rfl
      exact ⟨List.prefix_refl s.asked, rfl⟩
  · exact moves_of_run_eq fun _ => rfl

theorem moves_resolve (lookup : Option Lookup) (m : Mapping) :
    Moves Session.Continues (m.resolve (lookup.map Resolver.remembering)) := by
  unfold Mapping.resolve
  split
  · exact moves_of_run_eq fun _ => rfl
  · next t _ =>
    split_ifs
    · exact moves_of_run_eq fun _ => rfl
    · cases lookup with
      | none => exact moves_of_run_eq fun _ => rfl
      | some lookup =>
          refine (moves_remembering lookup t).bind fun found => ?_
          split_ifs <;> exact moves_of_run_eq fun _ => rfl

end Asking

/-! ## Pipelines -/

namespace Context

open Compile

variable {c : Context} {deferred : ReferenceMap} {pass : Pass} {front back : List Pass}
  {s s' : Session}

/-- The context in which the compilation is never cancelled. -/
def uncancelled (c : Context) : Context := { c with cancelled := fun _ => false }

section Pipeline

variable (schema : LiveSchema) (deferred : ReferenceMap) (pass : Pass)

theorem moves_compilePass : Moves Session.Continues (c.compilePass schema deferred pass) := by
  have hselected : Moves Session.Continues ((selectMappings (c.mappingsOf pass.table)
      pass.writes).mapM (Mapping.resolve (c.lookup.map Resolver.remembering))) :=
    .mapM fun m _ => moves_resolve c.lookup m
  unfold compilePass stages
  refine (hselected.bind fun selected => ?_).bind fun stages => moves_of_run_eq fun _ => rfl
  split <;> exact moves_of_run_eq fun _ => rfl

theorem run_pipeline_of_cancelled (h : c.cancelled s.checks = true) :
    (c.pipeline schema deferred pass).run.run s = (.error (.cancelled pass.table), s.looked) := by
  apply run_bind_of_error
  rw [run_checkCancelled, if_pos h]
  rfl

theorem run_pipeline_of_not_cancelled (h : c.cancelled s.checks = false) :
    (c.pipeline schema deferred pass).run.run s =
      (c.compilePass schema deferred pass).run.run s.looked := by
  apply run_bind_of_ok (a := ())
  rw [run_checkCancelled, if_neg (Bool.eq_false_iff.1 h)]
  rfl

/-- A pipeline is compiled as if it could not be cancelled, unless it is. -/
theorem run_pipeline_eq_uncancelled (h : c.cancelled s.checks = false) :
    (c.pipeline schema deferred pass).run.run s =
      (c.uncancelled.pipeline schema deferred pass).run.run s := by
  rw [run_pipeline_of_not_cancelled schema deferred pass h]
  exact (run_pipeline_of_not_cancelled (c := c.uncancelled) schema deferred pass rfl).symm

theorem moves_pipeline : Moves Session.Extends (c.pipeline schema deferred pass) := by
  intro s
  cases h : c.cancelled s.checks with
  | true =>
      rw [run_pipeline_of_cancelled schema deferred pass h]
      exact List.prefix_refl s.asked
  | false =>
      rw [run_pipeline_of_not_cancelled schema deferred pass h]
      exact (moves_compilePass schema deferred pass s.looked).asked

/-- A pipeline looks once whether the compilation is cancelled. -/
theorem checks_of_run_pipeline {r : Except CompileError Pipeline}
    (h : (c.pipeline schema deferred pass).run.run s = (r, s')) : s'.checks = s.checks + 1 := by
  obtain rfl : _ = s' := congrArg Prod.snd h
  cases hcancelled : c.cancelled s.checks with
  | true => rw [run_pipeline_of_cancelled schema deferred pass hcancelled, Session.looked]
  | false =>
      rw [run_pipeline_of_not_cancelled schema deferred pass hcancelled]
      exact (moves_compilePass schema deferred pass s.looked).checks

end Pipeline

/-- The pipelines of some passes look once for each of them. -/
theorem checks_of_run_pipelines {schema : LiveSchema} {pipelines : List Pipeline}
    (h : (front.mapM (c.pipeline schema deferred)).run.run s = (.ok pipelines, s')) :
    s'.checks = s.checks + front.length := by
  induction front generalizing s pipelines with
  | nil =>
      obtain ⟨-, rfl⟩ := run_pure_eq_ok_iff.1 h
      rfl
  | cons pass front ih =>
      rw [List.mapM_cons, run_bind_eq_ok_iff] at h
      obtain ⟨pipeline, s₁, hpipeline, h⟩ := h
      obtain ⟨pipelines', s₂, hpipelines, h⟩ := run_bind_eq_ok_iff.1 h
      obtain ⟨-, rfl⟩ := run_pure_eq_ok_iff.1 h
      have hfirst := checks_of_run_pipeline schema deferred pass hpipeline
      have hrest := ih hpipelines
      rw [List.length_cons]
      omega

/-- As long as no reading is set, the pipelines are compiled as if they could not be cancelled. -/
theorem run_pipelines_eq_uncancelled {schema : LiveSchema}
    (h : ∀ i < front.length, c.cancelled (s.checks + i) = false) :
    (front.mapM (c.pipeline schema deferred)).run.run s =
      (front.mapM (c.uncancelled.pipeline schema deferred)).run.run s := by
  induction front generalizing s with
  | nil => rfl
  | cons pass front ih =>
      rw [List.mapM_cons, List.mapM_cons,
        run_bind_congr (run_pipeline_eq_uncancelled schema deferred pass (h 0 (Nat.succ_pos _)))]
      rcases hrun : (c.uncancelled.pipeline schema deferred pass).run.run s with ⟨e | pipeline, s₁⟩
      · rw [run_bind_of_error hrun, run_bind_of_error hrun]
      · rw [run_bind_of_ok hrun, run_bind_of_ok hrun]
        refine run_bind_congr (ih fun i hi => ?_)
        -- the readings of the rest are those after the first
        rw [checks_of_run_pipeline schema deferred pass hrun, Nat.add_assoc, Nat.add_comm 1 i]
        exact h (i + 1) (Nat.succ_lt_succ hi)

/-! ## The build -/

section Build

variable {pipelines : List Pipeline}

/-- The pipelines of the first passes come before everything else. -/
theorem run_build_of_append (h : c.order = .ok (front ++ back, deferred)) :
    c.build.run.run s = (do
      let first ← front.mapM (c.pipeline c.schema deferred)
      let rest ← back.mapM (c.pipeline c.schema deferred)
      return ⟨c.id, first ++ rest⟩ : Compile Plan).run.run s := by
  rw [build_eq_of_order h, List.mapM_append]
  simp only [bind_assoc, pure_bind]

theorem run_build_of_front_error {e : CompileError} (h : c.order = .ok (front ++ back, deferred))
    (hfront : (front.mapM (c.pipeline c.schema deferred)).run.run s = (.error e, s')) :
    c.build.run.run s = (.error e, s') := by
  rw [run_build_of_append h]
  exact run_bind_of_error hfront

theorem run_build_of_cancelled (h : c.order = .ok (front ++ pass :: back, deferred))
    (hfront : (front.mapM (c.pipeline c.schema deferred)).run.run s = (.ok pipelines, s'))
    (hpass : c.cancelled s'.checks = true) :
    c.build.run.run s = (.error (.cancelled pass.table), s'.looked) := by
  rw [run_build_of_append h, run_bind_of_ok hfront, List.mapM_cons]
  exact run_bind_of_error (run_bind_of_error (run_pipeline_of_cancelled _ _ _ hpass))

/-- What the first pipelines ask for comes first in what the build asks for. -/
theorem asked_prefix_build (h : c.order = .ok (front ++ back, deferred))
    (hfront : (front.mapM (c.pipeline c.schema deferred)).run.run s = (.ok pipelines, s')) :
    s'.asked <+: (c.build.run.run s).2.asked := by
  rw [run_build_of_append h, run_bind_of_ok hfront]
  have hrest : Moves Session.Extends (back.mapM (c.pipeline c.schema deferred)) :=
    .mapM fun pass _ => moves_pipeline c.schema deferred pass
  exact (hrest.bind fun rest => moves_of_run_eq fun _ => rfl) s'

end Build

/-- A build whose order fails, or before whose passes no reading is set, goes as if it could not be
cancelled.  If the first reading that is set is before some pass, an error of an earlier pipeline
is the error of both builds; otherwise the build gives no plan but the error that names the table
of the pass, and what it has asked for comes first in what the other build asks for. -/
theorem cancelled_build_gives_nothing (c : Context) (s : Session) :
    (∀ e, c.order = .error e →
      c.build.run.run s = (.error e, s) ∧ c.uncancelled.build.run.run s = (.error e, s)) ∧
    ∀ passes deferred, c.order = .ok (passes, deferred) →
      ((∀ i < passes.length, c.cancelled (s.checks + i) = false) →
        c.build.run.run s = c.uncancelled.build.run.run s) ∧
      ∀ front pass back, passes = front ++ pass :: back →
        (∀ i < front.length, c.cancelled (s.checks + i) = false) →
        c.cancelled (s.checks + front.length) = true →
          (∀ e s', (front.mapM (c.uncancelled.pipeline c.schema deferred)).run.run s =
              (.error e, s') →
            c.build.run.run s = (.error e, s') ∧ c.uncancelled.build.run.run s = (.error e, s')) ∧
          ∀ pipelines s', (front.mapM (c.uncancelled.pipeline c.schema deferred)).run.run s =
              (.ok pipelines, s') →
            c.build.run.run s = (.error (.cancelled pass.table), s'.looked) ∧
              s'.asked <+: (c.uncancelled.build.run.run s).2.asked := by
  refine ⟨fun e he => ⟨run_build_eq_error he s, ?_⟩, fun passes deferred horder => ⟨?_, ?_⟩⟩
  · exact run_build_eq_error (c := c.uncancelled) he s
  · intro hreadings
    have hnever : c.uncancelled.build = _ := build_eq_of_order (c := c.uncancelled) horder
    rw [build_eq_of_order horder, hnever]
    exact run_bind_congr (run_pipelines_eq_uncancelled hreadings)
  · rintro front pass back rfl hreadings hset
    have hnever : c.uncancelled.order = .ok (front ++ pass :: back, deferred) := horder
    have hsame : (front.mapM (c.pipeline c.schema deferred)).run.run s =
        (front.mapM (c.uncancelled.pipeline c.schema deferred)).run.run s :=
      run_pipelines_eq_uncancelled hreadings
    refine ⟨fun e s' hfront => ⟨?_, ?_⟩, fun pipelines s' hfront => ⟨?_, ?_⟩⟩
    · exact run_build_of_front_error horder (hsame.trans hfront)
    · exact run_build_of_front_error hnever hfront
    · apply run_build_of_cancelled horder (hsame.trans hfront)
      rwa [checks_of_run_pipelines hfront]
    · exact asked_prefix_build hnever hfront

/-- The compilation is cancelled after the insert pass of the staff, before their bosses. -/
def cancelledStaff : Context := { maskedStaff ssnLookup with cancelled := fun n => n == 1 }

theorem cancelled_build_gives_nothing_staff :
    (cancelledStaff.build.run.run {}).1 = .error (.cancelled "public.staff") ∧
      (cancelledStaff.build.run.run {}).2.asked = ["mask"] ∧
      ["mask"] <+: (cancelledStaff.uncancelled.build.run.run {}).2.asked := by
  let first := (staffJob "boss").insertPass "public.staff" ["id", "boss"]
  let x := [first].mapM (cancelledStaff.uncancelled.pipeline cancelledStaff.schema
    ((staff "boss").deferred (staffPasses "boss")))
  have hpipelines : (x.run.run {}).1 = .ok (maskedStaffPlan.pipelines.take 1) := by decide +kernel
  have hmask : (x.run.run {}).2.asked = ["mask"] := by decide +kernel
  obtain ⟨-, hordered⟩ := cancelled_build_gives_nothing cancelledStaff {}
  obtain ⟨-, hcut⟩ := hordered _ _ (order_maskedStaff ssnLookup)
  obtain ⟨-, hcancelled⟩ := hcut [first] ((staffJob "boss").updatePass "public.staff") [] rfl
    (by decide) rfl
  obtain ⟨hbuild, hasked⟩ := hcancelled _ _ (Prod.ext hpipelines rfl)
  rw [hbuild]
  exact ⟨rfl, hmask, hmask ▸ hasked⟩

end Context

end TransferPlan
