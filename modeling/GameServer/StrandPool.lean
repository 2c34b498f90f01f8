import GameServer.Machine
import Mathlib.Logic.Function.Basic

namespace GameServer.StrandPool

/-- What a source of work has for a pool of workers. A call keeps its worker
waiting until a strand has run its handler, a post does not. -/
inductive Job (σ γ : Type)
  | call (source : γ) (strand : σ)
  | post (source : γ) (strand : σ)
  | plain (source : γ)
deriving DecidableEq

def Job.source {σ γ : Type} : Job σ γ → γ
  | .call source _ | .post source _ | .plain source => source

/-- A handler handed to a strand: of a call whose worker waits, of a post, or
of a call that found the strand idle. -/
inductive Handler (γ : Type)
  | waited (source : γ) (worker : Nat)
  | posted (source : γ)
  | inline
deriving DecidableEq

structure Strand (γ : Type) where
  locked : Bool := false
  ready : List (Handler γ) := []
  waiting : List (Handler γ) := []

inductive Item (σ γ : Type)
  | job (job : Job σ γ)
  | invoke (strand : σ)
deriving DecidableEq

inductive Worker (σ γ : Type)
  | idle
  | running (strand : σ) (batch : List (Handler γ)) (caller : Option γ)
  | blocked
deriving DecidableEq

structure Pool (σ γ : Type) where
  queue : List (Item σ γ) := []
  workers : List (Worker σ γ)
  strands : σ → Strand γ := fun _ => {}
  /-- The sources whose last job is not done. -/
  outstanding : List γ := []

inductive Action (ε : Type)
  | arrive (e : ε)
  | take (worker : Nat)
  | run (worker : Nat)
  | leave (worker : Nat)

variable {σ γ ε : Type} [DecidableEq σ] [DecidableEq γ]

namespace Pool

def setWorker (p : Pool σ γ) (w : Nat) (worker : Worker σ γ) : Pool σ γ :=
  { p with workers := p.workers.set w worker }

def setStrand (p : Pool σ γ) (s : σ) (strand : Strand γ) : Pool σ γ :=
  { p with strands := Function.update p.strands s strand }

def done (p : Pool σ γ) (source : γ) : Pool σ γ :=
  { p with outstanding := p.outstanding.erase source }

def enqueue (p : Pool σ γ) (s : σ) (handler : Handler γ) : Pool σ γ :=
  p.setStrand s { p.strands s with waiting := (p.strands s).waiting ++ [handler] }

def enter (p : Pool σ γ) (w : Nat) (s : σ) (handler : Handler γ) (caller : Option γ) : Pool σ γ :=
  (p.setStrand s { p.strands s with locked := true }).setWorker w (.running s [handler] caller)

def start (p : Pool σ γ) (w : Nat) : Item σ γ → Pool σ γ
  | .job (.plain c) => p.done c
  | .job (.post c s) =>
    if (p.strands s).locked then p.enqueue s (.posted c) else p.enter w s (.posted c) none
  | .job (.call c s) =>
    if (p.strands s).locked then (p.enqueue s (.waited c w)).setWorker w .blocked
    else p.enter w s .inline (some c)
  | .invoke s =>
    (p.setStrand s { p.strands s with ready := [] }).setWorker w (.running s (p.strands s).ready none)

def finish (p : Pool σ γ) : Handler γ → Pool σ γ
  | .waited c w => (p.setWorker w .idle).done c
  | .posted c => p.done c
  | .inline => p

/-- The end of a batch. With handlers waiting the strand stays locked and goes
to the end of the ready queue. -/
def unlock (p : Pool σ γ) (s : σ) : Pool σ γ :=
  if (p.strands s).waiting = [] then p.setStrand s { p.strands s with locked := false }
  else { p.setStrand s { p.strands s with ready := (p.strands s).waiting, waiting := [] } with
    queue := p.queue ++ [.invoke s] }

def leave (p : Pool σ γ) (w : Nat) (s : σ) (caller : Option γ) : Pool σ γ :=
  let p := (p.setWorker w .idle).unlock s
  match caller with
  | some c => p.done c
  | none => p

def AllBlocked (p : Pool σ γ) : Prop := ∀ worker ∈ p.workers, worker = .blocked

instance (p : Pool σ γ) : Decidable p.AllBlocked :=
  inferInstanceAs (Decidable (∀ worker ∈ p.workers, worker = .blocked))

end Pool

/-- A source has at most one job in the pool at a time. -/
def step (job : ε → Job σ γ) (p : Pool σ γ) : Action ε → Option (Pool σ γ)
  | .arrive e =>
    if (job e).source ∈ p.outstanding then none
    else some { p with queue := p.queue ++ [.job (job e)], outstanding := (job e).source :: p.outstanding }
  | .take w =>
    match p.workers[w]?, p.queue with
    | some .idle, item :: rest => some ({ p with queue := rest }.start w item)
    | _, _ => none
  | .run w =>
    match p.workers[w]? with
    | some (.running s (handler :: batch) caller) => some ((p.setWorker w (.running s batch caller)).finish handler)
    | _ => none
  | .leave w =>
    match p.workers[w]? with
    | some (.running s [] caller) => some (p.leave w s caller)
    | _ => none

def machine (job : ε → Job σ γ) (T : Nat) : Machine (Pool σ γ) (Action ε) where
  init := { workers := List.replicate T .idle }
  step := step job

variable {job : ε → Job σ γ}

open Pool

theorem leads_of_step (T : Nat) {p q : Pool σ γ} {a : Action ε} (h : step job p a = some q) :
    (machine job T).Leads p q := by
  have hstep : (machine job T).step p a = some q := h
  exact .of_step hstep

theorem AllBlocked.step {p q : Pool σ γ} (h : p.AllBlocked) {a : Action ε} (hs : step job p a = some q) :
    q.workers = p.workers := by
  have hnot : ∀ (w : Nat) (worker : Worker σ γ), p.workers[w]? = some worker → worker = .blocked :=
    fun w worker hw => h worker (List.mem_of_getElem? hw)
  cases a with
  | arrive e =>
      simp only [StrandPool.step] at hs
      split at hs
      next => cases hs
      next =>
        cases hs
        rfl
  | take w =>
      simp only [StrandPool.step] at hs
      split at hs
      next hw _ => cases hnot w _ hw
      next => cases hs
  | run w =>
      simp only [StrandPool.step] at hs
      split at hs
      next hw => cases hnot w _ hw
      next => cases hs
  | leave w =>
      simp only [StrandPool.step] at hs
      split at hs
      next hw => cases hnot w _ hw
      next => cases hs

theorem AllBlocked.forever {T : Nat} {p q : Pool σ γ} (h : p.AllBlocked) (hs : (machine job T).Leads p q) :
    q.AllBlocked := by
  refine hs.preserves (P := AllBlocked) ?_ h
  intro p a q hp hstep worker hw
  rw [AllBlocked.step hp hstep] at hw
  exact hp worker hw

/-- A worker on its own finds every strand idle: it never leaves one that has
handlers waiting. -/
inductive Solo (p : Pool σ γ) : Prop
  | idle (hw : p.workers = [.idle]) (hs : p.strands = fun _ => {}) (hq : ∀ s, .invoke s ∉ p.queue)
  | running (s : σ) (batch : List (Handler γ)) (caller : Option γ) (hw : p.workers = [.running s batch caller])
      (hb : ∀ c w, .waited c w ∉ batch) (hs : p.strands = Function.update (fun _ => {}) s { locked := true })
      (hq : ∀ s, .invoke s ∉ p.queue)

omit [DecidableEq γ] in
theorem Solo.not_allBlocked {p : Pool σ γ} (h : Solo p) : ¬ p.AllBlocked := by
  intro hall
  cases h with
  | idle hw => cases hall .idle (by simp [hw])
  | running s batch caller hw => cases hall (.running s batch caller) (by simp [hw])

theorem Solo.done {p : Pool σ γ} (h : Solo p) (c : γ) : Solo (p.done c) := by
  cases h with
  | idle hw hs hq => exact .idle hw hs hq
  | running s batch caller hw hb hs hq => exact .running s batch caller hw hb hs hq

theorem Solo.arrive {p q : Pool σ γ} (h : Solo p) {e : ε} (hs : step job p (.arrive e) = some q) : Solo q := by
  simp only [StrandPool.step] at hs
  split at hs
  next => cases hs
  next =>
    cases hs
    have hadd : ∀ {s : σ}, .invoke s ∉ p.queue → .invoke s ∉ p.queue ++ [.job (job e)] := by
      intro s hnot hin
      rcases List.mem_append.mp hin with hin | hin
      · exact hnot hin
      · cases List.mem_singleton.mp hin
    cases h with
    | idle hw hs hq => exact .idle hw hs (fun s => hadd (hq s))
    | running s batch caller hw hb hs hq => exact .running s batch caller hw hb hs (fun s => hadd (hq s))

theorem Solo.take {p q : Pool σ γ} (h : Solo p) {w : Nat} (hs : step job p (.take w) = some q) : Solo q := by
  simp only [StrandPool.step] at hs
  split at hs
  next item rest hw hqueue =>
    cases hs
    cases h with
    | running s batch caller hworkers =>
        rw [hworkers, List.getElem?_singleton] at hw
        split at hw <;> cases hw
    | idle hworkers hstrands hq =>
        have hw0 : w = 0 := by
          rw [hworkers, List.getElem?_singleton] at hw
          split at hw
          next h => exact h
          next => cases hw
        have hrest : ∀ s, .invoke s ∉ rest := fun s hin => hq s (by simp [hqueue, hin])
        subst hw0
        cases item with
        | invoke s => exact absurd (by simp [hqueue]) (hq s)
        | job j =>
            cases j with
            | plain c => exact .idle hworkers hstrands hrest
            | post c s =>
                have henter : ({ p with queue := rest } : Pool σ γ).start 0 (.job (.post c s)) =
                    ({ p with queue := rest } : Pool σ γ).enter 0 s (.posted c) none := by
                  simp [start, hstrands]
                rw [henter]
                refine .running s [.posted c] none ?_ (by simp) ?_ hrest
                · simp [enter, setWorker, setStrand, hworkers]
                · simp [enter, setWorker, setStrand, hstrands]
            | call c s =>
                have henter : ({ p with queue := rest } : Pool σ γ).start 0 (.job (.call c s)) =
                    ({ p with queue := rest } : Pool σ γ).enter 0 s .inline (some c) := by
                  simp [start, hstrands]
                rw [henter]
                refine .running s [.inline] (some c) ?_ (by simp) ?_ hrest
                · simp [enter, setWorker, setStrand, hworkers]
                · simp [enter, setWorker, setStrand, hstrands]
  next => cases hs

omit [DecidableEq γ] in
theorem Solo.of_running {p : Pool σ γ} (h : Solo p) {w : Nat} {s : σ} {batch : List (Handler γ)} {caller : Option γ}
    (hw : p.workers[w]? = some (.running s batch caller)) : w = 0 ∧ p.workers = [.running s batch caller] ∧
      (∀ c v, .waited c v ∉ batch) ∧ p.strands = Function.update (fun _ => {}) s { locked := true } ∧
      ∀ r, .invoke r ∉ p.queue := by
  cases h with
  | idle hworkers =>
      rw [hworkers, List.getElem?_singleton] at hw
      split at hw <;> cases hw
  | running r all own hworkers hb hstrands hq =>
      rw [hworkers, List.getElem?_singleton] at hw
      split at hw
      next hw0 =>
        cases hw
        exact ⟨hw0, hworkers, hb, hstrands, hq⟩
      next => cases hw

theorem Solo.run {p q : Pool σ γ} (h : Solo p) {w : Nat} (hs : step job p (.run w) = some q) : Solo q := by
  simp only [StrandPool.step] at hs
  split at hs
  next s handler batch caller hw =>
    cases hs
    obtain ⟨rfl, hworkers, hb, hstrands, hq⟩ := h.of_running hw
    have hrest : ∀ c w, .waited c w ∉ batch := fun c w hin => hb c w (by simp [hin])
    have hset : (p.setWorker 0 (.running s batch caller)).workers = [.running s batch caller] := by
      simp [setWorker, hworkers]
    cases handler with
    | waited c v => exact absurd (by simp) (hb c v)
    | posted c => exact .running s batch caller hset hrest hstrands hq
    | inline => exact .running s batch caller hset hrest hstrands hq
  next => cases hs

theorem Solo.leave {p q : Pool σ γ} (h : Solo p) {w : Nat} (hs : step job p (.leave w) = some q) : Solo q := by
  simp only [StrandPool.step] at hs
  split at hs
  next s caller hw =>
    cases hs
    obtain ⟨rfl, hworkers, hb, hstrands, hq⟩ := h.of_running hw
    have hwaiting : (p.strands s).waiting = [] := by rw [hstrands, Function.update_self]
    have hunlock : (p.setWorker 0 .idle).unlock s =
        (p.setWorker 0 .idle).setStrand s { p.strands s with locked := false } := if_pos hwaiting
    have hsolo : Solo ((p.setWorker 0 .idle).unlock s) := by
      rw [hunlock]
      refine .idle (by simp [setWorker, setStrand, hworkers]) ?_ hq
      simp [setWorker, setStrand, hstrands]
    cases caller with
    | none => exact hsolo
    | some c => exact hsolo.done c
  next => cases hs

theorem solo_reachable {p : Pool σ γ} (h : (machine job 1).Reachable p) : Solo p := by
  apply h.induction (.idle rfl rfl (by simp [machine]))
  intro p a q _ hp hs
  change step job p a = some q at hs
  cases a with
  | arrive e => exact hp.arrive hs
  | take w => exact hp.take hs
  | run w => exact hp.run hs
  | leave w => exact hp.leave hs

/-- The first worker runs a post on a strand, and of the others some wait for
that strand and some are idle. -/
structure Filling (s : σ) (c₀ : γ) (c : Nat → γ) (blocked idle : Nat) (p : Pool σ γ) : Prop where
  queue : p.queue = []
  workers : p.workers =
    .running s [.posted c₀] none :: (List.replicate blocked .blocked ++ List.replicate idle .idle)
  locked : (p.strands s).locked = true
  waiting : blocked = 0 ∨ (p.strands s).waiting ≠ []
  outstanding : ∀ x ∈ p.outstanding, x = c₀ ∨ ∃ i < blocked, x = c i

section Exhaustion

variable {s : σ} {c₀ : γ} {c : Nat → γ} (hc : Function.Injective c) (h0 : ∀ n, c n ≠ c₀) {e₀ : ε}
  (hpost : job e₀ = .post c₀ s) {e : Nat → ε} (hcall : ∀ n, job (e n) = .call (c n) s)

include hpost in
theorem filling_start (T : Nat) :
    ∃ p, (machine job (T + 1)).Reachable p ∧ Filling s c₀ c 0 T p := by
  have harrive : (machine job (T + 1)).step (machine job (T + 1)).init (.arrive e₀) =
      some { queue := [.job (.post c₀ s)], workers := List.replicate (T + 1) .idle, outstanding := [c₀] } := by
    simp [machine, step, hpost, Job.source]
  obtain ⟨p, hp⟩ : ∃ p : Pool σ γ,
    p = ({ workers := List.replicate (T + 1) .idle, outstanding := [c₀] } : Pool σ γ).enter 0 s (.posted c₀) none :=
      ⟨_, rfl⟩
  have htake : (machine job (T + 1)).step
      { queue := [.job (.post c₀ s)], workers := List.replicate (T + 1) .idle, outstanding := [c₀] } (.take 0) =
        some p := by
    simp [machine, step, start, hp, List.replicate_succ]
  refine ⟨p, (Machine.Reachable.init.step harrive).step htake, ?_⟩
  subst hp
  constructor
  · rfl
  · simp [enter, setWorker, setStrand, List.replicate_succ]
  · simp [enter, setWorker, setStrand]
  · exact Or.inl rfl
  · simp [enter, setWorker, setStrand]

include hc h0 hcall in
theorem Filling.free {blocked idle : Nat} {p : Pool σ γ} (h : Filling s c₀ c blocked idle p) :
    step job p (.arrive (e blocked)) =
      some { p with queue := [.job (.call (c blocked) s)], outstanding := c blocked :: p.outstanding } := by
  have hnew : c blocked ∉ p.outstanding := by
    intro hin
    rcases h.outstanding _ hin with he | ⟨i, hi, he⟩
    · exact h0 _ he
    · exact Nat.ne_of_gt hi (hc he)
  simp [step, hcall, Job.source, hnew, h.queue]

include hc h0 hcall in
theorem Filling.next {T blocked idle : Nat} {p : Pool σ γ} (h : Filling s c₀ c blocked (idle + 1) p) :
    ∃ q, (machine job T).Leads p q ∧ Filling s c₀ c (blocked + 1) idle q := by
  have harrive := h.free hc h0 hcall
  obtain ⟨p', hp'⟩ : ∃ p' : Pool σ γ,
    p' = { p with queue := [.job (.call (c blocked) s)], outstanding := c blocked :: p.outstanding } := ⟨_, rfl⟩
  rw [← hp'] at harrive
  have hworker : p'.workers[blocked + 1]? = some .idle := by
    rw [hp', h.workers, List.getElem?_cons_succ, List.getElem?_append_right (by simp)]
    simp
  have htake : step job p' (.take (blocked + 1)) =
      some (({ p' with queue := [] }.enqueue s (.waited (c blocked) (blocked + 1))).setWorker
        (blocked + 1) .blocked) := by
    have hlocked : (p'.strands s).locked = true := by rw [hp']; exact h.locked
    have hqueue : p'.queue = [.job (.call (c blocked) s)] := by rw [hp']
    simp only [step, hworker, hqueue, start, hlocked, if_true]
  refine ⟨_, (leads_of_step T harrive).trans (leads_of_step T htake), ?_⟩
  constructor
  · rfl
  · simp only [setWorker, enqueue, setStrand, hp', h.workers, List.set_cons_succ, List.replicate_succ (n := idle),
      List.set_append_right _ _ (Nat.le_of_eq List.length_replicate), List.length_replicate, Nat.sub_self,
      List.set_cons_zero]
    rw [List.replicate_succ', List.append_assoc, List.singleton_append]
  · simp only [setWorker, enqueue, setStrand, Function.update_self, hp']
    exact h.locked
  · exact Or.inr (by simp [setWorker, enqueue, setStrand])
  · intro x hx
    simp only [setWorker, enqueue, setStrand, hp', List.mem_cons] at hx
    rcases hx with rfl | hx
    · exact Or.inr ⟨blocked, Nat.lt_succ_self _, rfl⟩
    · exact (h.outstanding x hx).imp id (fun ⟨i, hi, he⟩ => ⟨i, Nat.lt_succ_of_lt hi, he⟩)

include hc h0 hcall in
theorem Filling.all {T : Nat} {idle : Nat} : ∀ {blocked : Nat} {p : Pool σ γ}, Filling s c₀ c blocked idle p →
    ∃ q, (machine job T).Leads p q ∧ Filling s c₀ c (blocked + idle) 0 q := by
  induction idle with
  | zero => exact fun h => ⟨_, .refl _, h⟩
  | succ idle ih =>
      intro blocked p h
      obtain ⟨q, hq, hnext⟩ := h.next hc h0 hcall (T := T)
      obtain ⟨r, hr, hlast⟩ := ih hnext
      have hsum : blocked + 1 + idle = blocked + (idle + 1) := by omega
      rw [hsum] at hlast
      exact ⟨r, hq.trans hr, hlast⟩

include hc h0 hcall in
theorem Filling.close {T blocked : Nat} {p : Pool σ γ} (h : Filling s c₀ c blocked 0 p) (hb : blocked ≠ 0) :
    ∃ q, (machine job T).Leads p q ∧ q.AllBlocked := by
  have hwaiting : (p.strands s).waiting ≠ [] := h.waiting.resolve_left hb
  have harrive := h.free hc h0 hcall
  obtain ⟨p₁, hp₁⟩ : ∃ p₁ : Pool σ γ,
    p₁ = { p with queue := [.job (.call (c blocked) s)], outstanding := c blocked :: p.outstanding } := ⟨_, rfl⟩
  rw [← hp₁] at harrive
  have hrun : step job p₁ (.run 0) = some ((p₁.setWorker 0 (.running s [] none)).done c₀) := by
    have hworker : p₁.workers[0]? = some (.running s [.posted c₀] none) := by rw [hp₁, h.workers]; rfl
    simp only [step, hworker, finish]
  obtain ⟨p₂, hp₂⟩ : ∃ p₂, p₂ = (p₁.setWorker 0 (.running s [] none)).done c₀ := ⟨_, rfl⟩
  rw [← hp₂] at hrun
  have hleave : step job p₂ (.leave 0) = some ((p₂.setWorker 0 .idle).unlock s) := by
    have hworker : p₂.workers[0]? = some (.running s [] none) := by
      simp [hp₂, hp₁, setWorker, done, h.workers]
    simp only [step, hworker, leave]
  obtain ⟨p₃, hp₃⟩ : ∃ p₃, p₃ = (p₂.setWorker 0 .idle).unlock s := ⟨_, rfl⟩
  rw [← hp₃] at hleave
  have hunlock : p₃ =
      { (p₂.setWorker 0 .idle).setStrand s
          { p₂.strands s with ready := (p₂.strands s).waiting, waiting := [] } with
        queue := p₂.queue ++ [.invoke s] } := by
    have hne : ((p₂.setWorker 0 .idle).strands s).waiting ≠ [] := by rw [hp₂, hp₁]; exact hwaiting
    rw [hp₃]
    exact if_neg hne
  have htake : step job p₃ (.take 0) =
      some (({ p₃ with queue := [.invoke s] }.enqueue s (.waited (c blocked) 0)).setWorker 0 .blocked) := by
    have hworker : p₃.workers[0]? = some .idle := by
      simp [hunlock, setStrand, setWorker, hp₂, hp₁, done, h.workers]
    have hqueue : p₃.queue = [.job (.call (c blocked) s), .invoke s] := by
      rw [hunlock, hp₂, hp₁]
      rfl
    have hlocked : (p₃.strands s).locked = true := by
      rw [hunlock, hp₂, hp₁]
      simpa [setStrand, setWorker, done] using h.locked
    simp only [step, hworker, hqueue, start, hlocked, if_true]
  refine ⟨_, ((leads_of_step T harrive).trans (leads_of_step T hrun)).trans
    ((leads_of_step T hleave).trans (leads_of_step T htake)), ?_⟩
  intro worker hin
  have hworkers : worker ∈ (.blocked :: List.replicate blocked .blocked : List (Worker σ γ)) := by
    simpa [hunlock, hp₂, hp₁, setWorker, setStrand, enqueue, done, h.workers] using hin
  rcases List.mem_cons.mp hworkers with rfl | hworkers
  · rfl
  · exact List.eq_of_mem_replicate hworkers

include hc h0 hpost hcall in
/-- Two or more workers can all be blocked: the strand they wait for stands in
the ready queue behind the call of the last one. -/
theorem exhausts {T : Nat} (hT : 2 ≤ T) : ∃ p, (machine job T).Reachable p ∧ p.AllBlocked := by
  obtain ⟨n, rfl⟩ := Nat.exists_eq_add_of_le' hT
  obtain ⟨p, hp, hstart⟩ := filling_start hpost (c := c) (n + 1)
  obtain ⟨q, hq, hfull⟩ := hstart.all hc h0 hcall (T := n + 1 + 1)
  obtain ⟨r, hr, hall⟩ := hfull.close hc h0 hcall (by omega) (T := n + 1 + 1)
  exact ⟨r, (hp.leads hq).leads hr, hall⟩

end Exhaustion

end GameServer.StrandPool
