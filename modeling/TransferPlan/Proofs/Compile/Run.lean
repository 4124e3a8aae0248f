import TransferPlan.Compile.Stage
import Mathlib.Data.List.Forall2

/-!
# Runs of a compilation

What a compilation gives when it succeeds is read off its parts: a sequence of two gives what the
second gives in the session that the first has left, and a list of compilations gives a value for
each item.  The errors of a compilation are those of its parts (`FailsOnly`).
-/

namespace TransferPlan

namespace Compile

variable {α β : Type} {s s' : Session}

theorem run_bind_of_ok {x : Compile α} {f : α → Compile β} {a : α} {s₁ : Session}
    (h : x.run.run s = (.ok a, s₁)) : (x >>= f).run.run s = (f a).run.run s₁ := by
  rw [ExceptT.run_bind, StateT.run_bind, h]
  rfl

theorem run_bind_of_error {x : Compile α} {f : α → Compile β} {e : CompileError} {s₁ : Session}
    (h : x.run.run s = (.error e, s₁)) : (x >>= f).run.run s = (.error e, s₁) := by
  rw [ExceptT.run_bind, StateT.run_bind, h]
  rfl

theorem run_bind_eq_ok_iff {x : Compile α} {f : α → Compile β} {b : β} :
    (x >>= f).run.run s = (.ok b, s') ↔
      ∃ a s₁, x.run.run s = (.ok a, s₁) ∧ (f a).run.run s₁ = (.ok b, s') := by
  rw [ExceptT.run_bind, StateT.run_bind]
  cases hx : x.run.run s with
  | mk r s₁ =>
      cases r with
      | error e =>
          refine iff_of_false (fun h => ?_) ?_
          · exact nomatch congrArg Prod.fst h
          · rintro ⟨a, s₂, h, -⟩
            exact nomatch congrArg Prod.fst h
      | ok a =>
          constructor
          · exact fun h => ⟨a, s₁, rfl, h⟩
          · rintro ⟨a', s₂, h, h'⟩
            obtain ⟨ha, rfl⟩ := Prod.mk.inj h
            obtain rfl := Except.ok.inj ha
            exact h'

theorem run_pure_eq_ok_iff {a b : α} :
    (pure a : Compile α).run.run s = (.ok b, s') ↔ a = b ∧ s = s' := by
  constructor
  · intro h
    obtain ⟨ha, rfl⟩ := Prod.mk.inj h
    exact ⟨Except.ok.inj ha, rfl⟩
  · rintro ⟨rfl, rfl⟩
    rfl

theorem run_throw_ne_ok {e : CompileError} {b : α} :
    (throw e : Compile α).run.run s ≠ (.ok b, s') :=
  fun h => nomatch congrArg Prod.fst h

/-- If all items of a list are compiled, each of them gives its value in some session. -/
theorem forall₂_of_run_mapM {f : α → Compile β} :
    ∀ {l : List α} {bs : List β} {s s' : Session}, (l.mapM f).run.run s = (.ok bs, s') →
      List.Forall₂ (fun a b => ∃ s s', (f a).run.run s = (.ok b, s')) l bs
  | [], bs, _, _, h => by
      rw [List.mapM_nil, run_pure_eq_ok_iff] at h
      exact h.1 ▸ .nil
  | a :: l, bs, s, _, h => by
      rw [List.mapM_cons, run_bind_eq_ok_iff] at h
      obtain ⟨b, s₁, hb, h⟩ := h
      obtain ⟨bs', s₂, hbs, h⟩ := run_bind_eq_ok_iff.1 h
      obtain ⟨rfl, -⟩ := run_pure_eq_ok_iff.1 h
      exact .cons ⟨s, s₁, hb⟩ (forall₂_of_run_mapM hbs)

/-! ## Errors -/

/-- Every error of the compilation has the property. -/
def FailsOnly (P : CompileError → Prop) (x : Compile α) : Prop :=
  ∀ s e s', x.run.run s = (.error e, s') → P e

section FailsOnly

variable {P : CompileError → Prop} {x : Compile α} {f : α → Compile β}

theorem failsOnly_of_run_eq_ok (h : ∀ s, ∃ a s', x.run.run s = (.ok a, s')) : FailsOnly P x :=
  fun s e s' he => by
    obtain ⟨a, s₁, ha⟩ := h s
    exact nomatch congrArg Prod.fst (ha.symm.trans he)

theorem failsOnly_pure (a : α) : FailsOnly P (pure a : Compile α) :=
  failsOnly_of_run_eq_ok fun s => ⟨a, s, rfl⟩

theorem failsOnly_throw {e : CompileError} (h : P e) : FailsOnly P (throw e : Compile α) :=
  fun _ _ _ he => Except.error.inj (congrArg Prod.fst he) ▸ h

theorem FailsOnly.bind (hx : FailsOnly P x)
    (hf : ∀ a s s', x.run.run s = (.ok a, s') → FailsOnly P (f a)) : FailsOnly P (x >>= f) := by
  intro s e s' h
  rcases hrun : x.run.run s with ⟨e' | a, s₁⟩
  · rw [run_bind_of_error hrun] at h
    exact Except.error.inj (congrArg Prod.fst h) ▸ hx s e' s₁ hrun
  · rw [run_bind_of_ok hrun] at h
    exact hf a s s₁ hrun s₁ e s' h

theorem FailsOnly.mapM {l : List α} (h : ∀ a ∈ l, FailsOnly P (f a)) : FailsOnly P (l.mapM f) := by
  induction l with
  | nil => exact failsOnly_pure _
  | cons a l ih =>
      have hl := ih fun b hb => h b (List.mem_cons_of_mem _ hb)
      rw [List.mapM_cons]
      exact (h a List.mem_cons_self).bind fun b _ _ _ => hl.bind fun bs _ _ _ => failsOnly_pure _

theorem FailsOnly.mono {Q : CompileError → Prop} (hx : FailsOnly P x) (h : ∀ e, P e → Q e) :
    FailsOnly Q x :=
  fun s e s' he => h e (hx s e s' he)

end FailsOnly

end Compile

end TransferPlan
