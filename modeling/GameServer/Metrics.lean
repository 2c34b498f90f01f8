import GameServer.Blocks
import GameServer.Machine
import GameServer.Responses

namespace GameServer

open Program

/-- A request from its read on. A reading is there between the two loads of a
snapshot: the total that was loaded, and the requests counted by then. -/
structure HttpTask where
  session : HttpSession
  calls : List (Sigma HttpCall.Answer) := []
  rest : Handler Unit
  reading : Option (UInt64 × List Nat) := none

/-- The two counters and the tasks of all threads. A task is known by its
place, and the record has the tasks that were counted and those that failed. -/
structure HttpServer where
  requestTotal : UInt64 := 0
  requestErrors : UInt64 := 0
  tasks : List HttpTask := []
  counted : List Nat := []
  failed : List Nat := []

namespace HttpServer

inductive Action
  | arrive (session : HttpSession)
  /-- The next call of a task, with an answer of the other services. -/
  | call (k : Nat) (answer : (op : HttpCall) → op.Answer)

def answered (s : HttpServer) (answer : (op : HttpCall) → op.Answer) : (op : HttpCall) → op.Answer
  | .loadRequestTotal => s.requestTotal
  | .loadRequestErrors => s.requestErrors
  | op => answer op

def count (s : HttpServer) (k : Nat) : HttpCall → HttpServer
  | .incrementRequest => { s with requestTotal := s.requestTotal + 1, counted := s.counted ++ [k] }
  | .incrementError => { s with requestErrors := s.requestErrors + 1, failed := s.failed ++ [k] }
  | _ => s

def readTotal (s : HttpServer) : HttpCall → Option (UInt64 × List Nat)
  | .loadRequestTotal => some (s.requestTotal, s.counted)
  | _ => none

def proceed (s : HttpServer) (task : HttpTask) (op : HttpCall) (answer : op.Answer) (rest : Handler Unit) : HttpTask :=
  { task with calls := task.calls ++ [⟨op, answer⟩], rest, reading := s.readTotal op }

def step (parse : Bytes → Option Json) (s : HttpServer) : Action → Option HttpServer
  | .arrive session => some { s with tasks := s.tasks ++ [{ session, rest := session.onRead parse }] }
  | .call k answer =>
    s.tasks[k]?.bind fun task =>
      match task.rest with
      | .call op next =>
        let a := s.answered answer op
        some { s.count k op with tasks := s.tasks.set k (s.proceed task op a (next a)) }
      | _ => none

def machine (parse : Bytes → Option Json) : Machine HttpServer Action := ⟨{}, step parse⟩

end HttpServer

def HttpTask.nextCall (task : HttpTask) : Option HttpCall :=
  match task.rest with
  | .call op _ => some op
  | _ => none

def Reports (calls : List (Sigma HttpCall.Answer)) (total errors : UInt64) : Prop :=
  [⟨.loadRequestTotal, total⟩, ⟨.loadRequestErrors, errors⟩] <:+: calls

/-- The numbers of a response to the metrics request are those of a snapshot. -/
theorem metrics_reports (s : HttpSession) : s.metrics.Ensures fun calls _ => ∀ res, ⟨.asyncWrite res, ()⟩ ∈ calls →
    ∃ total errors, Reports calls total errors ∧ (res.body.find "data").bind (·.find "requests") =
      some (Json.ofMembers [("total", .numberUnsigned total), ("errors", .numberUnsigned errors)]) := by
  apply Ensures.call
  intro activeSessions
  apply Ensures.call
  intro queueLength
  apply Ensures.call
  intro total
  apply Ensures.call
  intro errors
  apply Ensures.call
  intro active
  apply Ensures.call
  intro now
  refine (HttpSession.sendResponse_emitsOne rfl).mono ?_
  intro calls out hout res hres
  have hsent : res ∈ emitted responseOf calls := by
    refine List.mem_filterMap.mpr ⟨⟨.asyncWrite res, ()⟩, ?_, rfl⟩
    simpa using hres
  rcases hout with ⟨-, ⟨sent, hone, hbody⟩, -⟩ | ⟨-, hnone, -⟩
  · rw [hone, List.mem_singleton] at hsent
    refine ⟨total, errors, ⟨[⟨.activeSessionCount, activeSessions⟩, ⟨.queueLength, queueLength⟩], _, rfl⟩, ?_⟩
    rw [hsent, ← hbody]
    simp [envelope, Json.ofMembers, Json.set, Json.find, Json.lookup_insertMember]
  · rw [hnone] at hsent
    cases hsent

namespace HttpServer

structure Metered (s : HttpServer) : Prop where
  snapshots : ∀ task ∈ s.tasks, ∀ total errors, Reports task.calls total errors → errors ≤ total
  responses : ∀ task ∈ s.tasks, ∀ res, ⟨.asyncWrite res, ()⟩ ∈ task.calls → res.status ≥ 400 →
    ⟨.incrementRequest, ()⟩ ∈ task.calls

/-- What keeps the two counters together: the total does not wrap, and an error
is recorded once, for a plain request, while no snapshot stands between its two
loads that began before the request was counted. -/
def regularCall (s : HttpServer) (k : Nat) (task : HttpTask) : HttpCall → Bool
  | .incrementRequest => decide (s.requestTotal.toNat + 1 < UInt64.size)
  | .incrementError => decide (task.session.req.upgrade = false ∧ k ∉ s.failed ∧
      ∀ other ∈ s.tasks, ∀ reading ∈ other.reading, k ∈ reading.2)
  | _ => true

def Regular (s : HttpServer) : Action → Prop
  | .arrive _ => True
  | .call k _ => ∀ task ∈ s.tasks[k]?, ∀ op ∈ task.nextCall, s.regularCall k task op = true

instance (s : HttpServer) : (a : Action) → Decidable (s.Regular a)
  | .arrive _ => isTrue trivial
  | .call k _ =>
    inferInstanceAs (Decidable (∀ task ∈ s.tasks[k]?, ∀ op ∈ task.nextCall, s.regularCall k task op = true))

end HttpServer

section Guards

variable {parse : Bytes → Option Json} {session : HttpSession}

theorem onRead_guarded (h : session.req.upgrade = false) :
    (session.onRead parse).Guarded (· = .incrementRequest)
      fun op => op = .incrementError ∨ ∃ res, op = .asyncWrite res := by
  rw [HttpSession.onRead, h]
  exact Or.inr ⟨by simp, fun requestStart => Or.inr ⟨by simp, fun traceId => Or.inl rfl⟩⟩

theorem onRead_guarded_of_upgrade (h : session.req.upgrade = true) :
    (session.onRead parse).Guarded (· = .incrementError) fun op => ∃ res, op = .asyncWrite res := by
  rw [HttpSession.onRead, h]
  apply Guarded.bind
  · rw [HttpSession.extractAuthSession]
    split
    · trivial
    · dsimp only
      split
      · trivial
      · exact Or.inr ⟨by simp, fun _ => trivial⟩
  · intro user
    cases user with
    | none => exact Or.inr ⟨by simp, fun now => Or.inl rfl⟩
    | some user => exact Or.inr ⟨by simp, fun _ => trivial⟩

end Guards

theorem exists_mem_of_fst {calls : List (Sigma HttpCall.Answer)} {call : Sigma HttpCall.Answer} (h : call ∈ calls)
    {op : HttpCall} (hop : call.1 = op) : ∃ answer, ⟨op, answer⟩ ∈ calls := by
  subst hop
  exact ⟨call.2, h⟩

structure HttpTask.Fits (parse : Bytes → Option Json) (counted failed : List Nat) (k : Nat) (task : HttpTask) :
    Prop where
  after : (task.session.onRead parse).After task.calls task.rest
  counts : ⟨.incrementRequest, ()⟩ ∈ task.calls → k ∈ counted
  fails : ⟨.incrementError, ()⟩ ∈ task.calls → task.session.req.upgrade = false
  loaded : ∀ total, [⟨.loadRequestTotal, total⟩] <:+ task.calls → ∃ seen, task.reading = some (total, seen)
  seen : ∀ reading ∈ task.reading, reading.1.toNat = reading.2.length ∧ failed ⊆ reading.2
  reports : ∀ total errors, Reports task.calls total errors → errors ≤ total

namespace HttpTask.Fits

variable {parse : Bytes → Option Json} {counted failed : List Nat} {k : Nat} {task : HttpTask}

theorem start (session : HttpSession) : Fits parse counted failed k { session, rest := session.onRead parse } := by
  refine ⟨.start, by simp, by simp, by simp, by simp, ?_⟩
  intro total errors h
  simp [Reports] at h

theorem mono (h : task.Fits parse counted failed k) {counted' failed' : List Nat} (hc : counted ⊆ counted')
    (hf : ∀ reading ∈ task.reading, failed ⊆ reading.2 → failed' ⊆ reading.2) :
    task.Fits parse counted' failed' k where
  after := h.after
  counts hcall := hc (h.counts hcall)
  fails := h.fails
  loaded := h.loaded
  seen reading hr := ⟨(h.seen reading hr).1, hf reading hr (h.seen reading hr).2⟩
  reports := h.reports

theorem counted_before_error (h : task.Fits parse counted failed k) (hup : task.session.req.upgrade = false)
    {next : Unit → Handler Unit} (hrest : task.rest = .call .incrementError next) : k ∈ counted := by
  obtain ⟨call, hcall, hfirst⟩ := (onRead_guarded hup).called_of_next (hrest ▸ h.after) (Or.inl rfl) (by simp)
  obtain ⟨_, hcounted⟩ := exists_mem_of_fst hcall hfirst
  exact h.counts hcounted

theorem counted_before_response (h : task.Fits parse counted failed k) {res : Response}
    (hres : ⟨.asyncWrite res, ()⟩ ∈ task.calls) : ⟨.incrementRequest, ()⟩ ∈ task.calls := by
  by_cases hup : task.session.req.upgrade = true
  · obtain ⟨call, hcall, hfirst⟩ := (onRead_guarded_of_upgrade hup).called h.after hres ⟨res, rfl⟩
    obtain ⟨_, hfailed⟩ := exists_mem_of_fst hcall hfirst
    have hplain := h.fails hfailed
    rw [hup] at hplain
    cases hplain
  · have hplain : task.session.req.upgrade = false := Bool.eq_false_iff.mpr hup
    obtain ⟨call, hcall, hfirst⟩ := (onRead_guarded hplain).called h.after hres (Or.inr ⟨res, rfl⟩)
    obtain ⟨_, hcounted⟩ := exists_mem_of_fst hcall hfirst
    exact hcounted

end HttpTask.Fits

namespace HttpServer

variable {parse : Bytes → Option Json} {s t : HttpServer} {k : Nat} {task : HttpTask} {op : HttpCall}

/-- The counters are the lengths of the record. -/
structure Tallied (s : HttpServer) : Prop where
  total : s.requestTotal.toNat = s.counted.length
  errors : s.requestErrors.toNat = s.failed.length
  nodup : s.failed.Nodup
  subset : s.failed ⊆ s.counted

theorem Tallied.count (h : s.Tallied) (hreg : s.regularCall k task op = true)
    (herr : op = .incrementError → k ∈ s.counted) : (s.count k op).Tallied := by
  unfold HttpServer.count
  split
  next =>
    have hlt : s.requestTotal.toNat + 1 < UInt64.size := of_decide_eq_true hreg
    refine ⟨?_, h.errors, h.nodup, List.Subset.trans h.subset (List.subset_append_left _ _)⟩
    rw [UInt64.toNat_add, List.length_append, ← h.total]
    exact Nat.mod_eq_of_lt hlt
  next =>
    obtain ⟨-, hnew, -⟩ := of_decide_eq_true hreg
    have hnodup : (s.failed ++ [k]).Nodup := by
      rw [List.nodup_append_comm]
      exact List.nodup_cons.mpr ⟨hnew, h.nodup⟩
    have hsubset : s.failed ++ [k] ⊆ s.counted := by
      intro j hj
      rcases List.mem_append.mp hj with hj | hj
      · exact h.subset hj
      · rw [List.mem_singleton.mp hj]
        exact herr rfl
    have hle : (s.failed ++ [k]).length ≤ s.counted.length := (hnodup.subperm hsubset).length_le
    refine ⟨h.total, ?_, hnodup, hsubset⟩
    rw [List.length_append, ← h.total, List.length_singleton] at hle
    rw [UInt64.toNat_add, List.length_append, h.errors]
    exact Nat.mod_eq_of_lt (hle.trans_lt s.requestTotal.toNat_lt)
  next => exact h

theorem counted_count : s.counted ⊆ (s.count k op).counted := by
  unfold count
  split
  next => exact List.subset_append_left _ _
  next => exact List.Subset.refl _
  next => exact List.Subset.refl _

theorem failed_count (hreg : s.regularCall k task op = true) {other : HttpTask} (hother : other ∈ s.tasks)
    {reading : UInt64 × List Nat} (hr : reading ∈ other.reading) (hseen : s.failed ⊆ reading.2) :
    (s.count k op).failed ⊆ reading.2 := by
  unfold count
  split
  next => exact hseen
  next =>
    obtain ⟨-, -, hall⟩ := of_decide_eq_true hreg
    exact List.append_subset.mpr ⟨hseen, by simpa using hall other hother reading hr⟩
  next => exact hseen

theorem step_cases {a : Action} (h : step parse s a = some t) :
    (∃ session, a = .arrive session ∧ t = { s with tasks := s.tasks ++ [{ session, rest := session.onRead parse }] }) ∨
    ∃ k answer task op next, a = .call k answer ∧ s.tasks[k]? = some task ∧ task.rest = .call op next ∧
      t = { s.count k op with
        tasks := s.tasks.set k (s.proceed task op (s.answered answer op) (next (s.answered answer op))) } := by
  cases a with
  | arrive session =>
      cases h
      exact Or.inl ⟨session, rfl, rfl⟩
  | call k answer =>
      obtain ⟨task, htask, h⟩ := Option.bind_eq_some_iff.mp h
      dsimp only at h
      split at h
      next op next hrest =>
        cases h
        exact Or.inr ⟨k, answer, task, op, next, rfl, htask, hrest, rfl⟩
      next => cases h

theorem answered_total (answer : (op : HttpCall) → op.Answer) {total : UInt64}
    (h : (⟨.loadRequestTotal, total⟩ : Sigma HttpCall.Answer) = ⟨op, s.answered answer op⟩) :
    op = .loadRequestTotal ∧ total = s.requestTotal := by
  obtain rfl : op = .loadRequestTotal := (congrArg Sigma.fst h).symm
  exact ⟨rfl, eq_of_heq (Sigma.mk.inj h).2⟩

theorem answered_errors (answer : (op : HttpCall) → op.Answer) {errors : UInt64}
    (h : (⟨.loadRequestErrors, errors⟩ : Sigma HttpCall.Answer) = ⟨op, s.answered answer op⟩) :
    errors = s.requestErrors := by
  obtain rfl : op = .loadRequestErrors := (congrArg Sigma.fst h).symm
  exact eq_of_heq (Sigma.mk.inj h).2

theorem proceed_fits (hs : s.Tallied) (h : task.Fits parse s.counted s.failed k)
    {next : op.Answer → Handler Unit} (hrest : task.rest = .call op next) (hreg : s.regularCall k task op = true)
    (answer : (op : HttpCall) → op.Answer) :
    (s.proceed task op (s.answered answer op) (next (s.answered answer op))).Fits parse (s.count k op).counted
      (s.count k op).failed k where
  after := (hrest ▸ h.after).call _
  counts hcall := by
    rcases List.mem_append.mp hcall with hcall | hcall
    · exact counted_count (h.counts hcall)
    · obtain rfl : op = .incrementRequest := (congrArg Sigma.fst (List.mem_singleton.mp hcall)).symm
      exact List.mem_append_right _ (List.mem_singleton.mpr rfl)
  fails hcall := by
    rcases List.mem_append.mp hcall with hcall | hcall
    · exact h.fails hcall
    · obtain rfl : op = .incrementError := (congrArg Sigma.fst (List.mem_singleton.mp hcall)).symm
      exact (of_decide_eq_true hreg).1
  loaded total hlast := by
    obtain ⟨rfl, rfl⟩ := answered_total answer (List.singleton_suffix_append_singleton_iff.mp hlast)
    exact ⟨s.counted, rfl⟩
  seen reading hr := by
    change reading ∈ s.readTotal op at hr
    unfold readTotal at hr
    split at hr
    next =>
      cases hr
      exact ⟨hs.total, hs.subset⟩
    next => cases hr
  reports total errors hrep := by
    rcases List.infix_concat_iff.mp hrep with hlast | hbefore
    · obtain hnil | ⟨front, hpair, hfront⟩ := List.suffix_concat_iff.mp hlast
      · cases hnil
      · change [_] ++ [_] = front ++ [_] at hpair
        obtain ⟨rfl, hcall⟩ := List.append_inj' hpair rfl
        obtain rfl := answered_errors answer (List.singleton_inj.mp hcall)
        obtain ⟨seen, hreading⟩ := h.loaded total hfront
        obtain ⟨hlength, hseen⟩ := h.seen _ hreading
        rw [UInt64.le_iff_toNat_le, hs.errors, hlength]
        exact (hs.nodup.subperm hseen).length_le
    · exact h.reports total errors hbefore

structure Inv (parse : Bytes → Option Json) (s : HttpServer) : Prop where
  tallied : s.Tallied
  fits : ∀ (k : Nat) (task : HttpTask), s.tasks[k]? = some task → task.Fits parse s.counted s.failed k

theorem inv_init : Inv parse {} where
  tallied := ⟨rfl, rfl, List.nodup_nil, List.Subset.refl _⟩
  fits k task h := by simp at h

theorem inv_step {a : Action} (hi : Inv parse s) (hreg : s.Regular a) (h : step parse s a = some t) : Inv parse t := by
  rcases step_cases h with ⟨session, rfl, rfl⟩ | ⟨k, answer, task, op, next, rfl, htask, hrest, rfl⟩
  · refine ⟨⟨hi.tallied.total, hi.tallied.errors, hi.tallied.nodup, hi.tallied.subset⟩, ?_⟩
    intro j other hother
    rw [getElem?_concat_eq] at hother
    split at hother
    next =>
      cases hother
      exact .start session
    next => exact hi.fits j other hother
  · have hnext : task.nextCall = some op := by rw [HttpTask.nextCall, hrest]
    have hcall : s.regularCall k task op = true := hreg task htask op hnext
    have hfits := hi.fits k task htask
    have herror : op = .incrementError → k ∈ s.counted := by
      rintro rfl
      exact hfits.counted_before_error (of_decide_eq_true hcall).1 hrest
    have htallied := hi.tallied.count hcall herror
    refine ⟨⟨htallied.total, htallied.errors, htallied.nodup, htallied.subset⟩, ?_⟩
    intro j other hother
    change (s.tasks.set k _)[j]? = some other at hother
    rw [getElem?_set_of_some htask] at hother
    split at hother
    next hj =>
      cases hother
      subst hj
      exact proceed_fits hi.tallied hfits hrest hcall answer
    next =>
      refine (hi.fits j other hother).mono counted_count ?_
      intro reading hr hseen
      exact failed_count hcall (List.mem_of_getElem? hother) hr hseen

theorem Inv.metered (hi : Inv parse s) : s.Metered where
  snapshots task htask total errors hrep := by
    obtain ⟨k, hk⟩ := List.getElem?_of_mem htask
    exact (hi.fits k task hk).reports total errors hrep
  responses task htask res hres _ := by
    obtain ⟨k, hk⟩ := List.getElem?_of_mem htask
    exact (hi.fits k task hk).counted_before_response hres

/-- In a run whose steps are all regular no snapshot shows more errors than
requests, and every response of 400 or above belongs to a counted request. -/
theorem metered_of_regular (parse : Bytes → Option Json) {as : List Action} (h : (machine parse).Obeys Regular {} as) :
    (machine parse).Always Metered {} as :=
  h.always (fun _ _ _ hi hreg ht => inv_step hi hreg ht) (fun _ => Inv.metered) inv_init

def getRequest (path : String) : HttpSession := ⟨⟨10, []⟩, { method := .get, target := bytes path }, "", 0⟩

def refused (k n : Nat) : List Action := List.replicate n (.call k HttpCall.refusal)

def notFound : List Action :=
  .arrive (getRequest "/metrics") :: refused 0 12 ++ .arrive (getRequest "/nowhere") :: refused 1 8 ++
    .arrive (getRequest "/metrics") :: refused 2 12

theorem metered_of_notFound : (machine fun _ => none).Always Metered {} notFound :=
  metered_of_regular _ (by decide)

def deniedTwice : List Action :=
  let upgrade : HttpSession := ⟨⟨10, []⟩, { method := .get, target := bytes "/ws", upgrade := true }, "", 0⟩
  .arrive upgrade :: refused 0 5 ++ .arrive upgrade :: refused 1 5 ++ .arrive (getRequest "/metrics") :: refused 2 7

def betweenLoads : List Action :=
  .arrive (getRequest "/metrics") :: refused 0 6 ++ .arrive (getRequest "/nowhere") :: refused 1 8 ++
    .arrive (getRequest "/nowhere") :: refused 2 8 ++ refused 0 1

theorem not_metered_of_loads {as : List Action} (k n : Nat) (total errors : UInt64)
    (h : (((machine parse).run as).bind fun s => s.tasks[k]?.map fun task => task.calls.drop n) =
      some [⟨.loadRequestTotal, total⟩, ⟨.loadRequestErrors, errors⟩]) (hlt : ¬ errors ≤ total) :
    ¬ (machine parse).Always Metered {} as := by
  obtain ⟨s, hs, htask⟩ := Option.bind_eq_some_iff.mp h
  obtain ⟨task, htask, hcalls⟩ := Option.map_eq_some_iff.mp htask
  have hreports : Reports task.calls total errors := by
    rw [Reports, ← hcalls]
    exact (List.drop_suffix n task.calls).isInfix
  intro halways
  exact hlt ((halways.at_end hs).snapshots task (List.mem_of_getElem? htask) total errors hreports)

/-- Either way one request is reported, with two errors. -/
theorem not_metered_of_denied : ¬ (machine fun _ => none).Always Metered {} deniedTwice ∧
    ¬ (machine fun _ => none).Always Metered {} betweenLoads :=
  ⟨not_metered_of_loads 2 5 1 2 rfl (by decide), not_metered_of_loads 0 5 1 2 rfl (by decide)⟩

end HttpServer

end GameServer
