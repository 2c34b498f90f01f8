import GameServer.Machine
import GameServer.Program
import Mathlib.Data.List.Forall2

namespace GameServer

section Options

variable {α β γ δ : Type} {r : α → β → Prop} {r' : γ → δ → Prop} {x : Option α} {y : Option β}

theorem rel_bind {f : α → Option γ} {g : β → Option δ} (h : Option.Rel r x y)
    (hf : ∀ a b, r a b → Option.Rel r' (f a) (g b)) : Option.Rel r' (x.bind f) (y.bind g) := by
  cases h with
  | none => exact .none
  | some h => exact hf _ _ h

theorem rel_map {f : α → γ} {g : β → δ} (h : Option.Rel r x y) (hf : ∀ a b, r a b → r' (f a) (g b)) :
    Option.Rel r' (x.map f) (y.map g) := by
  cases h with
  | none => exact .none
  | some h => exact .some (hf _ _ h)

theorem isSome_eq_of_rel (h : Option.Rel r x y) : x.isSome = y.isSome := by
  cases h with
  | none => rfl
  | some => rfl

theorem map_eq_of_rel {f : α → γ} {g : β → γ} (h : Option.Rel r x y) (hf : ∀ a b, r a b → f a = g b) :
    x.map f = y.map g := by
  cases h with
  | none => rfl
  | some h => exact congrArg some (hf _ _ h)

theorem rel_getElem? {as : List α} {bs : List β} (h : List.Forall₂ r as bs) (k : Nat) :
    Option.Rel r as[k]? bs[k]? := by
  induction h generalizing k with
  | nil => exact .none
  | cons hab _ ih =>
      cases k with
      | zero => exact .some hab
      | succ k => exact ih k

theorem forall₂_set {as : List α} {bs : List β} (h : List.Forall₂ r as bs) (k : Nat) {a : α} {b : β} (hab : r a b) :
    List.Forall₂ r (as.set k a) (bs.set k b) := by
  induction h generalizing k with
  | nil => exact .nil
  | cons h₁ h₂ ih =>
      cases k with
      | zero => exact .cons hab h₂
      | succ k => exact .cons h₁ (ih k)

theorem map_eq_of_forall₂ {f : α → γ} {g : β → γ} {as : List α} {bs : List β} (h : List.Forall₂ r as bs)
    (hf : ∀ a b, r a b → f a = g b) : as.map f = bs.map g := by
  induction h with
  | nil => rfl
  | cons hab _ ih => rw [List.map_cons, List.map_cons, hf _ _ hab, ih]

end Options

namespace Machine

variable {σ τ α β : Type} {M : Machine σ α} {N : Machine τ β} {R : σ → τ → Prop} {A : α → β → Prop}

/-- Two machines in step: related labels are refused on both sides or lead to
related states. -/
theorem run_rel (hinit : R M.init N.init)
    (hstep : ∀ s t a b, R s t → A a b → Option.Rel R (M.step s a) (N.step t b)) {as : List α} {bs : List β}
    (h : List.Forall₂ A as bs) : Option.Rel R (M.run as) (N.run bs) := by
  have hgeneral : ∀ s t, R s t → Option.Rel R (M.runFrom s as) (N.runFrom t bs) := by
    induction h with
    | nil => exact fun s t hst => .some hst
    | cons hab _ ih => exact fun s t hst => rel_bind (hstep s t _ _ hst hab) ih
  exact hgeneral _ _ hinit

end Machine

namespace Program

variable {Op : Type} {Answer : Op → Type} {ε α β α' β' : Type}

/-- Two programs in step: they make linked calls and go on in step after the
same answers. -/
inductive InStep (link : Op → Op → Prop) (r : α → β → Prop) :
    Program Op Answer ε α → Program Op Answer ε β → Prop
  | pure {a : α} {b : β} (h : r a b) : InStep link r (.pure a) (.pure b)
  | throw (e : ε) : InStep link r (.throw e) (.throw e)
  | call {op op' : Op} {next : Answer op → Program Op Answer ε α} {next' : Answer op' → Program Op Answer ε β}
      (h : link op op') (hnext : ∀ a a', HEq a a' → InStep link r (next a) (next' a')) :
      InStep link r (.call op next) (.call op' next')

namespace InStep

variable {link : Op → Op → Prop} {r : α → β → Prop} {p : Program Op Answer ε α} {q : Program Op Answer ε β}

theorem bind {r' : α' → β' → Prop} {f : α → Program Op Answer ε α'} {g : β → Program Op Answer ε β'}
    (h : p.InStep link r q) (hf : ∀ a b, r a b → (f a).InStep link r' (g b)) :
    (p >>= f).InStep link r' (q >>= g) := by
  change (p.bind f).InStep link r' (q.bind g)
  induction h with
  | pure h => exact hf _ _ h
  | throw e => exact .throw e
  | call h _ ih => exact .call h ih

theorem tryCatch {handle : ε → Program Op Answer ε α} {handle' : ε → Program Op Answer ε β} (h : p.InStep link r q)
    (hh : ∀ e, (handle e).InStep link r (handle' e)) : (p.tryCatch handle).InStep link r (q.tryCatch handle') := by
  induction h with
  | pure h => exact .pure h
  | throw e => exact hh e
  | call h _ ih => exact .call h ih

theorem request_bind {op op' : Op} {f : Answer op → Program Op Answer ε α} {g : Answer op' → Program Op Answer ε β}
    (h : link op op') (hf : ∀ a a', HEq a a' → (f a).InStep link r (g a')) :
    (Program.request op >>= f).InStep link r (Program.request op' >>= g) :=
  .call h hf

/-- A program that makes no calls of some kind is in step with itself, when the
other calls are linked to themselves. -/
theorem of_silent {ρ : Type} {emit : Op → Option ρ} {p : Program Op Answer ε α} (hp : p.Silent emit)
    (answer : (op : Op) → Answer op) (hlink : ∀ op, emit op = none → link op op) : p.InStep link (· = ·) p := by
  induction p with
  | pure value => exact .pure rfl
  | throw e => exact .throw e
  | call op next ih =>
      have hsent : ∀ a calls out, (next a).Runs calls out →
          ∀ call ∈ (⟨op, a⟩ :: calls : List (Sigma Answer)), emit call.1 = none :=
        fun a calls out hr => List.filterMap_eq_nil_iff.mp (hp _ _ (.call op next a hr))
      apply call
      · exact hlink op (hsent (answer op) _ _ (runs_replay answer _) _ List.mem_cons_self)
      · intro a a' ha
        cases ha
        apply ih a
        intro calls out hr
        exact List.filterMap_eq_nil_iff.mpr fun call hcall => hsent a calls out hr call (List.mem_cons_of_mem _ hcall)

end InStep

end Program

end GameServer
