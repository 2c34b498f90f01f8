namespace GameServer

/-- A labelled machine: a label is refused in a state where its step gives
nothing. Nondeterminism lies in the choice of labels. -/
structure Machine (σ α : Type) where
  init : σ
  step : σ → α → Option σ

namespace Machine

variable {σ α : Type} (M : Machine σ α)

def runFrom : σ → List α → Option σ
  | s, [] => some s
  | s, a :: as => (M.step s a).bind (fun t => runFrom t as)

def run (as : List α) : Option σ := M.runFrom M.init as

def Leads (s t : σ) : Prop := ∃ as, M.runFrom s as = some t

def Reachable (s : σ) : Prop := M.Leads M.init s

/-- Every state visited by a run from s satisfies P. -/
def Always (P : σ → Prop) : σ → List α → Prop
  | s, [] => P s
  | s, a :: as => P s ∧ ∀ t, M.step s a = some t → Always P t as

/-- Every step taken by a run from s satisfies Q. -/
def Obeys (Q : σ → α → Prop) : σ → List α → Prop
  | _, [] => True
  | s, a :: as => ∀ t, M.step s a = some t → Q s a ∧ Obeys Q t as

def Takes (Q : σ → α → Prop) : σ → List α → Prop
  | _, [] => False
  | s, a :: as => ∃ t, M.step s a = some t ∧ (Q s a ∨ Takes Q t as)

def restrict (Q : σ → α → Prop) [∀ s a, Decidable (Q s a)] : Machine σ α where
  init := M.init
  step s a := if Q s a then M.step s a else none

/-- The machine that also writes down what its steps mean. -/
def recorded {ε : Type} (note : σ → α → List ε) : Machine (σ × List ε) α where
  init := (M.init, [])
  step s a := (M.step s.1 a).map fun t => (t, s.2 ++ note s.1 a)

variable {M}

theorem runFrom_append (s : σ) (as bs : List α) :
    M.runFrom s (as ++ bs) = (M.runFrom s as).bind (fun t => M.runFrom t bs) := by
  induction as generalizing s with
  | nil => rfl
  | cons a as ih =>
      cases h : M.step s a with
      | none => simp [runFrom, h]
      | some t => simp [runFrom, h, ih]

theorem Leads.refl (s : σ) : M.Leads s s := ⟨[], rfl⟩

theorem Leads.trans {s t u : σ} (h : M.Leads s t) (h' : M.Leads t u) : M.Leads s u := by
  obtain ⟨as, ha⟩ := h
  obtain ⟨bs, hb⟩ := h'
  exact ⟨as ++ bs, by rw [runFrom_append, ha]; exact hb⟩

theorem Leads.of_step {s t : σ} {a : α} (h : M.step s a = some t) : M.Leads s t :=
  ⟨[a], by simp [runFrom, h]⟩

theorem Leads.step {s t u : σ} {a : α} (h : M.Leads s t) (h' : M.step t a = some u) : M.Leads s u :=
  h.trans (.of_step h')

theorem Leads.preserves {P : σ → Prop} (hstep : ∀ s a t, P s → M.step s a = some t → P t)
    {s t : σ} (h : M.Leads s t) (hs : P s) : P t := by
  obtain ⟨as, ha⟩ := h
  induction as generalizing s with
  | nil =>
      cases ha
      exact hs
  | cons a as ih =>
      obtain ⟨u, hu, ha⟩ := Option.bind_eq_some_iff.mp ha
      exact ih (hstep s a u hs hu) ha

theorem Reachable.init : M.Reachable M.init := Leads.refl _

theorem Reachable.step {s t : σ} {a : α} (h : M.Reachable s) (h' : M.step s a = some t) :
    M.Reachable t :=
  Leads.step h h'

theorem Reachable.leads {s t : σ} (h : M.Reachable s) (h' : M.Leads s t) : M.Reachable t :=
  Leads.trans h h'

theorem Reachable.of_run {as : List α} {s : σ} (h : M.run as = some s) : M.Reachable s := ⟨as, h⟩

theorem exists_of_run (as : List α) (P : σ → Prop) [DecidablePred P]
    (h : (M.run as).any (fun s => decide (P s)) = true) : ∃ s, M.run as = some s ∧ M.Reachable s ∧ P s := by
  obtain ⟨s, hs, hp⟩ := (Option.any_eq_true _ _).mp h
  exact ⟨s, hs, .of_run hs, of_decide_eq_true hp⟩

/-- The invariant rule. The step may use what is already known of reachable
states. -/
theorem Reachable.induction {P : σ → Prop} (hinit : P M.init)
    (hstep : ∀ s a t, M.Reachable s → P s → M.step s a = some t → P t)
    {s : σ} (h : M.Reachable s) : P s := by
  have hboth : M.Reachable s ∧ P s :=
    Leads.preserves (P := fun s => M.Reachable s ∧ P s)
      (fun s a t hs ht => ⟨hs.1.step ht, hstep s a t hs.1 hs.2 ht⟩) h ⟨Reachable.init, hinit⟩
  exact hboth.2

theorem run_induction {P : List α → σ → Prop} (hinit : P [] M.init)
    (hstep : ∀ as s a t, M.Reachable s → P as s → M.step s a = some t → P (as ++ [a]) t) {as : List α} {s : σ}
    (h : M.run as = some s) : P as s := by
  have hgeneral : ∀ (as done : List α) (s t : σ), M.Reachable s → P done s → M.runFrom s as = some t →
      P (done ++ as) t := by
    intro as
    induction as with
    | nil =>
        intro done s t _ hp ht
        cases ht
        rwa [List.append_nil]
    | cons a as ih =>
        intro done s t hs hp ht
        obtain ⟨u, hu, ht⟩ := Option.bind_eq_some_iff.mp ht
        rw [List.append_cons]
        exact ih (done ++ [a]) u t (hs.step hu) (hstep done s a u hs hp hu) ht
  exact hgeneral as [] M.init s .init hinit h

/-- The simulation rule: what one machine reaches another one follows, with
any number of steps for each of the first. -/
theorem Reachable.simulated {τ β : Type} {N : Machine τ β} {R : σ → τ → Prop} (hinit : R M.init N.init)
    (hstep : ∀ s a t r, M.Reachable s → R s r → M.step s a = some t → ∃ u, N.Leads r u ∧ R t u)
    {s : σ} (h : M.Reachable s) : ∃ r, N.Reachable r ∧ R s r := by
  refine h.induction (P := fun s => ∃ r, N.Reachable r ∧ R s r) ⟨N.init, Reachable.init, hinit⟩ ?_
  rintro s a t hs ⟨r, hr, hrel⟩ ht
  obtain ⟨u, hu, hrel'⟩ := hstep s a t r hs hrel ht
  exact ⟨u, hr.leads hu, hrel'⟩

theorem Always.at_end {P : σ → Prop} {as : List α} {s t : σ} (h : M.Always P s as) (ht : M.runFrom s as = some t) :
    P t := by
  induction as generalizing s with
  | nil =>
      cases ht
      exact h
  | cons a as ih =>
      obtain ⟨u, hu, ht⟩ := Option.bind_eq_some_iff.mp ht
      exact ih (h.2 u hu) ht

theorem Obeys.preserves {P : σ → Prop} {Q : σ → α → Prop}
    (hstep : ∀ s a t, P s → Q s a → M.step s a = some t → P t) {as : List α} {s t : σ}
    (ho : M.Obeys Q s as) (h : M.runFrom s as = some t) (hs : P s) : P t := by
  induction as generalizing s with
  | nil =>
      cases h
      exact hs
  | cons a as ih =>
      obtain ⟨u, hu, h⟩ := Option.bind_eq_some_iff.mp h
      obtain ⟨hq, ho⟩ := ho u hu
      exact ih ho h (hstep s a u hs hq hu)

theorem Obeys.always {I P : σ → Prop} {Q : σ → α → Prop}
    (hstep : ∀ s a t, I s → Q s a → M.step s a = some t → I t) (hp : ∀ s, I s → P s) {as : List α} {s : σ}
    (ho : M.Obeys Q s as) (hs : I s) : M.Always P s as := by
  induction as generalizing s with
  | nil => exact hp s hs
  | cons a as ih =>
      refine ⟨hp s hs, ?_⟩
      intro t ht
      obtain ⟨hq, ho⟩ := ho t ht
      exact ih ho (hstep s a t hs hq ht)

instance decidableObeys (M : Machine σ α) (Q : σ → α → Prop) [∀ s a, Decidable (Q s a)] :
    (s : σ) → (as : List α) → Decidable (M.Obeys Q s as)
  | _, [] => isTrue trivial
  | s, a :: as =>
    match h : M.step s a with
    | none => isTrue fun t ht => by simp [h] at ht
    | some t =>
      have := decidableObeys M Q t as
      decidable_of_iff (Q s a ∧ M.Obeys Q t as) (by simp [Obeys, h])

theorem takes_of_lost {I P : σ → Prop} {Q : σ → α → Prop}
    (hinv : ∀ s a t, I s → M.step s a = some t → I t)
    (hstep : ∀ s a t, I s → P s → M.step s a = some t → P t ∨ Q s a) {as : List α} {s t : σ}
    (h : M.runFrom s as = some t) (hi : I s) (hs : P s) (ht : ¬ P t) : M.Takes Q s as := by
  induction as generalizing s with
  | nil =>
      cases h
      exact absurd hs ht
  | cons a as ih =>
      obtain ⟨u, hu, h⟩ := Option.bind_eq_some_iff.mp h
      rcases hstep s a u hi hs hu with hp | hq
      · exact ⟨u, hu, Or.inr (ih h (hinv s a u hi hu) hp)⟩
      · exact ⟨u, hu, Or.inl hq⟩

theorem Takes.exists_step {Q : σ → α → Prop} {as : List α} {s : σ} (h : M.Takes Q s as) :
    ∃ u a t, M.Leads s u ∧ M.step u a = some t ∧ Q u a := by
  induction as generalizing s with
  | nil => exact h.elim
  | cons a as ih =>
      obtain ⟨t, ht, hq | hrest⟩ := h
      · exact ⟨s, a, t, .refl s, ht, hq⟩
      · obtain ⟨u, b, v, hu, hv, hq⟩ := ih hrest
        exact ⟨u, b, v, (Leads.of_step ht).trans hu, hv, hq⟩

theorem restrict_step {Q : σ → α → Prop} [∀ s a, Decidable (Q s a)] {s t : σ} {a : α} :
    (M.restrict Q).step s a = some t ↔ Q s a ∧ M.step s a = some t := by
  simp only [restrict]
  split
  next hq => simp [hq]
  next hq => simp [hq]

theorem recorded_step {ε : Type} {note : σ → α → List ε} {s t : σ} {a : α} {h g : List ε} :
    (M.recorded note).step (s, h) a = some (t, g) ↔ M.step s a = some t ∧ g = h ++ note s a := by
  simp only [recorded, Option.map_eq_some_iff, Prod.mk.injEq]
  constructor
  · rintro ⟨u, hu, rfl, rfl⟩
    exact ⟨hu, rfl⟩
  · rintro ⟨hu, rfl⟩
    exact ⟨t, hu, rfl, rfl⟩

theorem Reachable.recorded_induction {ε : Type} {note : σ → α → List ε} {P : σ → List ε → Prop} (hinit : P M.init [])
    (hstep : ∀ s h a t, P s h → M.step s a = some t → P t (h ++ note s a)) {s : σ} {h : List ε}
    (hr : (M.recorded note).Reachable (s, h)) : P s h := by
  refine hr.induction (P := fun r => P r.1 r.2) hinit ?_
  rintro ⟨s, h⟩ a ⟨t, g⟩ - hp ht
  obtain ⟨hs, rfl⟩ := recorded_step.mp ht
  exact hstep s h a t hp hs

theorem Reachable.of_recorded {ε : Type} {note : σ → α → List ε} {s : σ × List ε}
    (hr : (M.recorded note).Reachable s) : M.Reachable s.1 := by
  refine Reachable.recorded_induction (P := fun s _ => M.Reachable s) .init ?_ hr
  intro s h a t hs ht
  exact hs.step ht

/-- Where each step keeps P exactly when it obeys Q, a run visits only
states satisfying P exactly when all its steps obey Q. -/
theorem always_iff_obeys {I P : σ → Prop} {Q : σ → α → Prop}
    (hinv : ∀ s a t, I s → M.step s a = some t → I t)
    (hstep : ∀ s a t, I s → P s → M.step s a = some t → (P t ↔ Q s a))
    (as : List α) (s : σ) (hi : I s) (hp : P s) : M.Always P s as ↔ M.Obeys Q s as := by
  induction as generalizing s with
  | nil => simp [Always, Obeys, hp]
  | cons a as ih =>
      simp only [Always, Obeys, hp, true_and]
      apply forall_congr'
      intro t
      apply imp_congr_right
      intro ht
      have hpq : P t ↔ Q s a := hstep s a t hi hp ht
      constructor
      · intro h
        have hpt : P t := by
          cases as with
          | nil => exact h
          | cons b bs => exact h.1
        exact ⟨hpq.mp hpt, (ih t (hinv s a t hi ht) hpt).mp h⟩
      · intro h
        exact (ih t (hinv s a t hi ht) (hpq.mpr h.1)).mpr h.2

end Machine

end GameServer
