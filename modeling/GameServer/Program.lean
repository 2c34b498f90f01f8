import Mathlib.Data.List.Basic

namespace GameServer

/-- A program is what it calls, and how it goes on with each answer. -/
inductive Program (Op : Type) (Answer : Op → Type) (ε α : Type)
  | pure (value : α)
  | throw (e : ε)
  | call (op : Op) (next : Answer op → Program Op Answer ε α)

namespace Program

variable {Op : Type} {Answer : Op → Type} {ε α β : Type}

def bind : Program Op Answer ε α → (α → Program Op Answer ε β) → Program Op Answer ε β
  | .pure value, f => f value
  | .throw e, _ => .throw e
  | .call op next, f => .call op fun answer => (next answer).bind f

/-- The calls made before the exception stay made. -/
def tryCatch : Program Op Answer ε α → (ε → Program Op Answer ε α) → Program Op Answer ε α
  | .pure value, _ => .pure value
  | .throw e, handle => handle e
  | .call op next, handle => .call op fun answer => (next answer).tryCatch handle

instance : Monad (Program Op Answer ε) where
  pure := .pure
  bind := .bind

def request (op : Op) : Program Op Answer ε (Answer op) := .call op .pure

/-- A run: the calls with the answers they got, and how it ended. -/
inductive Runs : Program Op Answer ε α → List (Sigma Answer) → Except ε α → Prop
  | pure (value : α) : Runs (.pure value) [] (.ok value)
  | throw (e : ε) : Runs (.throw e) [] (.error e)
  | call (op : Op) (next : Answer op → Program Op Answer ε α) (answer : Answer op) {calls : List (Sigma Answer)}
      {out : Except ε α} (h : Runs (next answer) calls out) : Runs (.call op next) (⟨op, answer⟩ :: calls) out

def replay (answer : (op : Op) → Answer op) : Program Op Answer ε α → List (Sigma Answer) × Except ε α
  | .pure value => ([], .ok value)
  | .throw e => ([], .error e)
  | .call op next =>
    let (calls, out) := (next (answer op)).replay answer
    (⟨op, answer op⟩ :: calls, out)

theorem runs_replay (answer : (op : Op) → Answer op) (p : Program Op Answer ε α) :
    p.Runs (p.replay answer).1 (p.replay answer).2 := by
  induction p with
  | pure value => exact .pure value
  | throw e => exact .throw e
  | call op next ih => exact .call op next (answer op) (ih (answer op))

theorem answer_of_mem_replay (answer : (op : Op) → Answer op) {p : Program Op Answer ε α} {op : Op} {a : Answer op}
    (h : ⟨op, a⟩ ∈ (p.replay answer).1) : a = answer op := by
  induction p with
  | pure value => cases h
  | throw e => cases h
  | call other next ih =>
      rcases List.mem_cons.mp h with h | h
      · cases h
        rfl
      · exact ih (answer other) h

inductive After (p : Program Op Answer ε α) : List (Sigma Answer) → Program Op Answer ε α → Prop
  | start : After p [] p
  | call {calls : List (Sigma Answer)} {op : Op} {next : Answer op → Program Op Answer ε α}
      (h : After p calls (.call op next)) (answer : Answer op) : After p (calls ++ [⟨op, answer⟩]) (next answer)

def Guarded (first second : Op → Prop) : Program Op Answer ε α → Prop
  | .pure _ | .throw _ => True
  | .call op next => first op ∨ (¬ second op ∧ ∀ answer, (next answer).Guarded first second)

section Guarded

variable {first second : Op → Prop} {p : Program Op Answer ε α}

theorem Guarded.bind {f : α → Program Op Answer ε β} (hp : p.Guarded first second)
    (hf : ∀ value, (f value).Guarded first second) : (p >>= f).Guarded first second := by
  change (p.bind f).Guarded first second
  induction p with
  | pure value => exact hf value
  | throw e => trivial
  | call op next ih => exact hp.imp id fun h => ⟨h.1, fun answer => ih answer (h.2 answer)⟩

theorem Guarded.after (hp : p.Guarded first second) {calls : List (Sigma Answer)} {rest : Program Op Answer ε α}
    (h : p.After calls rest) :
    (∃ call ∈ calls, first call.1) ∨ ((∀ call ∈ calls, ¬ second call.1) ∧ rest.Guarded first second) := by
  induction h with
  | start => exact Or.inr ⟨by simp, hp⟩
  | @call calls op next h answer ih =>
      rcases ih with ⟨call, hcall, hfirst⟩ | ⟨hcalls, hfirst | ⟨hsecond, hnext⟩⟩
      · exact Or.inl ⟨call, List.mem_append_left _ hcall, hfirst⟩
      · exact Or.inl ⟨⟨op, answer⟩, by simp, hfirst⟩
      · refine Or.inr ⟨?_, hnext answer⟩
        intro call hcall
        rcases List.mem_append.mp hcall with hcall | hcall
        · exact hcalls call hcall
        · rw [List.mem_singleton.mp hcall]
          exact hsecond

theorem Guarded.called (hp : p.Guarded first second) {calls : List (Sigma Answer)} {rest : Program Op Answer ε α}
    (h : p.After calls rest) {call : Sigma Answer} (hcall : call ∈ calls) (hsecond : second call.1) :
    ∃ call ∈ calls, first call.1 :=
  (hp.after h).elim id fun hnone => absurd hsecond (hnone.1 call hcall)

theorem Guarded.called_of_next (hp : p.Guarded first second) {calls : List (Sigma Answer)} {op : Op}
    {next : Answer op → Program Op Answer ε α} (h : p.After calls (.call op next)) (hsecond : second op)
    (hne : ¬ first op) : ∃ call ∈ calls, first call.1 := by
  rcases hp.after h with hcalled | ⟨-, hfirst | hno⟩
  · exact hcalled
  · exact absurd hfirst hne
  · exact absurd hsecond hno.1

end Guarded

/-- What holds of every run, whatever the calls answer. -/
def Ensures (p : Program Op Answer ε α) (post : List (Sigma Answer) → Except ε α → Prop) : Prop :=
  ∀ calls out, p.Runs calls out → post calls out

namespace Ensures

variable {post post' : List (Sigma Answer) → Except ε α → Prop} {p : Program Op Answer ε α}

theorem mono (h : p.Ensures post) (himp : ∀ calls out, post calls out → post' calls out) : p.Ensures post' :=
  fun calls out hr => himp calls out (h calls out hr)

theorem pure {value : α} (h : post [] (.ok value)) : (Program.pure value : Program Op Answer ε α).Ensures post := by
  intro calls out hr
  cases hr
  exact h

theorem throw {e : ε} (h : post [] (.error e)) : (Program.throw e : Program Op Answer ε α).Ensures post := by
  intro calls out hr
  cases hr
  exact h

theorem call {op : Op} {next : Answer op → Program Op Answer ε α}
    (h : ∀ answer, (next answer).Ensures fun calls out => post (⟨op, answer⟩ :: calls) out) :
    (Program.call op next).Ensures post := by
  intro calls out hr
  cases hr with
  | call _ _ answer hr => exact h answer _ _ hr

theorem bind {f : α → Program Op Answer ε β} {goal : List (Sigma Answer) → Except ε β → Prop}
    (h : p.Ensures fun calls out => match out with
      | .ok value => (f value).Ensures fun rest out => goal (calls ++ rest) out
      | .error e => goal calls (.error e)) : (p >>= f).Ensures goal := by
  change (p.bind f).Ensures goal
  induction p generalizing goal with
  | pure value => exact h _ _ (.pure value)
  | throw e => exact .throw (h _ _ (.throw e))
  | call op next ih =>
      apply call
      intro answer
      apply ih
      intro calls out hr
      exact h _ _ (.call op next answer hr)

theorem tryCatch {handle : ε → Program Op Answer ε α}
    (h : p.Ensures fun calls out => match out with
      | .ok value => post calls (.ok value)
      | .error e => (handle e).Ensures fun rest out => post (calls ++ rest) out) :
    (p.tryCatch handle).Ensures post := by
  induction p generalizing post with
  | pure value => exact .pure (h _ _ (.pure value))
  | throw e => exact h _ _ (.throw e)
  | call op next ih =>
      apply call
      intro answer
      apply ih
      intro calls out hr
      exact h _ _ (.call op next answer hr)

end Ensures

section Emitting

variable {ρ : Type} (emit : Op → Option ρ)

def emitted (calls : List (Sigma Answer)) : List ρ := calls.filterMap fun call => emit call.1

def Emits (sent : List ρ) (p : Program Op Answer ε α) : Prop := p.Ensures fun calls _ => emitted emit calls = sent

abbrev Silent (p : Program Op Answer ε α) : Prop := p.Emits emit []

def Quiet (p : Program Op Answer ε α) : Prop :=
  p.Ensures fun calls out => emitted emit calls = [] ∧ ∃ value, out = .ok value

/-- One thing is sent, or nothing and an exception comes out. The condition
tells which. -/
def EmitsOne (ok : Prop) (R : ρ → Prop) (p : Program Op Answer ε α) : Prop :=
  p.Ensures fun calls out =>
    (ok ∧ (∃ r, emitted emit calls = [r] ∧ R r) ∧ ∃ value, out = .ok value) ∨
      (¬ ok ∧ emitted emit calls = [] ∧ ∃ e, out = .error e)

/-- The same for the body of a try block, which can throw under the condition
too. -/
def TriesOne (ok : Prop) (R : ρ → Prop) (p : Program Op Answer ε α) : Prop :=
  p.Ensures fun calls out =>
    (ok ∧ (∃ r, emitted emit calls = [r] ∧ R r) ∧ ∃ value, out = .ok value) ∨
      (emitted emit calls = [] ∧ ∃ e, out = .error e)

variable {emit} {ok : Prop} {R : ρ → Prop} {p : Program Op Answer ε α} {f : α → Program Op Answer ε β}

theorem emitted_append (calls rest : List (Sigma Answer)) :
    emitted emit (calls ++ rest) = emitted emit calls ++ emitted emit rest := List.filterMap_append

theorem Quiet.pure (value : α) : (Program.pure value : Program Op Answer ε α).Quiet emit :=
  Ensures.pure ⟨rfl, value, rfl⟩

theorem Quiet.request {op : Op} (h : emit op = none) :
    (Program.request op : Program Op Answer ε (Answer op)).Quiet emit := by
  apply Ensures.call
  intro answer
  exact Ensures.pure ⟨by simp [emitted, h], answer, rfl⟩

theorem Quiet.bind (hp : p.Quiet emit) (hf : ∀ value, (f value).Quiet emit) : (p >>= f).Quiet emit := by
  apply Ensures.bind
  refine hp.mono ?_
  rintro calls out ⟨hcalls, value, rfl⟩
  refine (hf value).mono ?_
  rintro rest out ⟨hrest, hout⟩
  exact ⟨by rw [emitted_append, hcalls, hrest]; rfl, hout⟩

theorem Quiet.silent (hp : p.Quiet emit) : p.Silent emit := hp.mono fun _ _ h => h.1

theorem Emits.bind {sent : List ρ} (hp : p.Quiet emit) (hf : ∀ value, (f value).Emits emit sent) :
    (p >>= f).Emits emit sent := by
  apply Ensures.bind
  refine hp.mono ?_
  rintro calls out ⟨hcalls, value, rfl⟩
  refine (hf value).mono ?_
  intro rest out h
  rwa [emitted_append, hcalls]

theorem Emits.call {op : Op} {r : ρ} {next : Answer op → Program Op Answer ε α} (h : emit op = some r)
    (hnext : ∀ answer, (next answer).Silent emit) : (Program.call op next).Emits emit [r] := by
  apply Ensures.call
  intro answer
  refine (hnext answer).mono ?_
  intro calls out hcalls
  simpa [emitted, h] using hcalls

theorem Silent.bind (hp : p.Silent emit) (hf : ∀ value, (f value).Silent emit) : (p >>= f).Silent emit := by
  apply Ensures.bind
  refine hp.mono ?_
  intro calls out hcalls
  cases out with
  | error e => exact hcalls
  | ok value =>
      refine (hf value).mono ?_
      intro rest out h
      rw [emitted_append, hcalls, h]
      rfl

theorem Silent.throw (e : ε) : (Program.throw e : Program Op Answer ε α).Silent emit := Ensures.throw rfl

theorem EmitsOne.request {op : Op} {r : ρ} (h : emit op = some r) (hok : ok) (hr : R r) :
    (Program.request op : Program Op Answer ε (Answer op)).EmitsOne emit ok R := by
  apply Ensures.call
  intro answer
  exact Ensures.pure (Or.inl ⟨hok, ⟨r, by simp [emitted, h], hr⟩, answer, rfl⟩)

theorem EmitsOne.call {op : Op} {next : Answer op → Program Op Answer ε α} (h : emit op = none)
    (hnext : ∀ answer, (next answer).EmitsOne emit ok R) : (Program.call op next).EmitsOne emit ok R := by
  apply Ensures.call
  intro answer
  refine (hnext answer).mono ?_
  intro calls out hout
  simpa [emitted, h] using hout

theorem EmitsOne.throw (hok : ¬ ok) (e : ε) : (Program.throw e : Program Op Answer ε α).EmitsOne emit ok R :=
  Ensures.throw (Or.inr ⟨hok, rfl, e, rfl⟩)

theorem EmitsOne.bind (hp : p.Quiet emit) (hf : ∀ value, (f value).EmitsOne emit ok R) :
    (p >>= f).EmitsOne emit ok R := by
  apply Ensures.bind
  refine hp.mono ?_
  rintro calls out ⟨hcalls, value, rfl⟩
  refine (hf value).mono ?_
  intro rest out h
  rwa [emitted_append, hcalls]

theorem EmitsOne.ensures_iff (hp : p.EmitsOne emit ok R) (answer : (op : Op) → Answer op) :
    (p.Ensures fun calls out => (∃ r, emitted emit calls = [r] ∧ R r) ∧ ∃ value, out = .ok value) ↔ ok := by
  constructor
  · intro h
    obtain ⟨hone, value, hvalue⟩ := h _ _ (runs_replay answer p)
    rcases hp _ _ (runs_replay answer p) with ⟨hok, -⟩ | ⟨-, -, e, he⟩
    · exact hok
    · rw [hvalue] at he
      cases he
  · intro hok
    refine hp.mono ?_
    rintro calls out (⟨-, hone, hout⟩ | ⟨hno, -⟩)
    · exact ⟨hone, hout⟩
    · exact absurd hok hno

theorem EmitsOne.tries (hp : p.EmitsOne emit ok R) : p.TriesOne emit ok R :=
  hp.mono fun _ _ h => h.imp id And.right

theorem TriesOne.bind (hp : p.Silent emit) (hf : ∀ value, (f value).TriesOne emit ok R) :
    (p >>= f).TriesOne emit ok R := by
  apply Ensures.bind
  refine hp.mono ?_
  intro calls out hcalls
  cases out with
  | error e => exact Or.inr ⟨hcalls, e, rfl⟩
  | ok value =>
      refine (hf value).mono ?_
      intro rest out h
      rwa [emitted_append, hcalls]

theorem EmitsOne.tryCatch {handle : ε → Program Op Answer ε α} (hp : p.TriesOne emit ok R)
    (hh : ∀ e, (handle e).EmitsOne emit ok R) : (p.tryCatch handle).EmitsOne emit ok R := by
  apply Ensures.tryCatch
  refine hp.mono ?_
  rintro calls out (⟨hok, hone, value, rfl⟩ | ⟨hcalls, e, rfl⟩)
  · exact Or.inl ⟨hok, hone, value, rfl⟩
  · refine (hh e).mono ?_
    intro rest out h
    rwa [emitted_append, hcalls]

theorem EmitsOne.tryCatch_same {R' : ρ → Prop} {handle : ε → Program Op Answer ε α} (hp : p.EmitsOne emit ok R)
    (hh : ∀ e, (handle e).EmitsOne emit ok R') : (p.tryCatch handle).EmitsOne emit ok R := by
  apply Ensures.tryCatch
  refine hp.mono ?_
  rintro calls out (⟨hok, hone, value, rfl⟩ | ⟨hno, hcalls, e, rfl⟩)
  · exact Or.inl ⟨hok, hone, value, rfl⟩
  · refine (hh e).mono ?_
    rintro rest out (⟨hok, -⟩ | ⟨-, hrest, hout⟩)
    · exact absurd hok hno
    · exact Or.inr ⟨hno, by rw [emitted_append, hcalls, hrest]; rfl, hout⟩

theorem Silent.tryCatch {handle : ε → Program Op Answer ε α} (hp : p.Silent emit)
    (hh : ∀ e, (handle e).Silent emit) : (p.tryCatch handle).Silent emit := by
  apply Ensures.tryCatch
  refine hp.mono ?_
  intro calls out hcalls
  cases out with
  | ok value => exact hcalls
  | error e =>
      refine (hh e).mono ?_
      intro rest out h
      rw [emitted_append, hcalls, h]
      rfl

end Emitting

end Program

end GameServer
