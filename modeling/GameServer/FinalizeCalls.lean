import GameServer.Blocks
import GameServer.Machine
import GameServer.Standings
import Mathlib.Data.List.Induction

namespace GameServer

/-- How far a FinalizeResult call has come. -/
inductive FinalizeStage
  | saving
  | ensuring (todo : List (Int × String))
  | returned (result : Bool)
deriving DecidableEq, Repr

structure FinalizeCall where
  record : MatchResultRecord
  participants : List SessionParticipant
  stage : FinalizeStage := .saving
deriving DecidableEq

def FinalizeCall.Saved (call : FinalizeCall) : Prop := call.stage ≠ .saving ∧ call.stage ≠ .returned false

/-- The two stores and the FinalizeResult calls made on them, each known by the
order of its beginning. The calls that have made their ApplyMatchResult step
are noted in the order of these steps. -/
structure ResultCalls where
  records : ResultRepository := ∅
  ratings : RatingService := ∅
  calls : List FinalizeCall := []
  applied : List Nat := []
deriving DecidableEq

namespace ResultCalls

variable {D : Type}

inductive Action
  | begin (record : MatchResultRecord) (participants : List SessionParticipant)
  | proceed (k : Nat)
  | ensureUser (userId : Int) (username : String)
deriving DecidableEq, Repr

def setStage (s : ResultCalls) (k : Nat) (call : FinalizeCall) (stage : FinalizeStage) : ResultCalls :=
  { s with calls := s.calls.set k { call with stage := stage } }

def step (elo : Elo D) (s : ResultCalls) : Action → Option ResultCalls
  | .begin record participants =>
    some { s with calls := s.calls ++ [{ record := record, participants := participants }] }
  | .proceed k =>
    s.calls[k]?.bind fun call =>
      match call.stage with
      | .saving =>
        let (records, saved) := s.records.saveIfAbsent call.record
        let stage := if saved then .ensuring (usersToEnsure call.record call.participants) else .returned false
        some { s.setStage k call stage with records := records }
      | .ensuring (user :: todo) =>
        some { s.setStage k call (.ensuring todo) with ratings := s.ratings.ensureUser user.1 user.2 }
      | .ensuring [] =>
        some { s.setStage k call (.returned true) with
          ratings := (s.ratings.applyMatchResult elo call.record.winnerUserId call.record.loserId).1
          applied := s.applied ++ [k] }
      | .returned _ => none
  | .ensureUser userId username => some { s with ratings := s.ratings.ensureUser userId username }

def machine (elo : Elo D) : Machine ResultCalls Action where
  init := {}
  step := step elo

inductive Effect (elo : Elo D) (s : ResultCalls) : ResultCalls → Prop
  | begin (record : MatchResultRecord) (participants : List SessionParticipant) :
      Effect elo s { s with calls := s.calls ++ [{ record := record, participants := participants }] }
  | save {k : Nat} {call : FinalizeCall} (hk : s.calls[k]? = some call) (hs : call.stage = .saving)
      (hnew : call.record.sessionId ∉ s.records) :
      Effect elo s { s.setStage k call (.ensuring (usersToEnsure call.record call.participants)) with
        records := s.records.insert call.record.sessionId call.record }
  | skip {k : Nat} {call : FinalizeCall} (hk : s.calls[k]? = some call) (hs : call.stage = .saving)
      (hold : call.record.sessionId ∈ s.records) : Effect elo s (s.setStage k call (.returned false))
  | ensure {k : Nat} {call : FinalizeCall} {user : Int × String} {todo : List (Int × String)}
      (hk : s.calls[k]? = some call) (hs : call.stage = .ensuring (user :: todo)) :
      Effect elo s { s.setStage k call (.ensuring todo) with ratings := s.ratings.ensureUser user.1 user.2 }
  | rate {k : Nat} {call : FinalizeCall} (hk : s.calls[k]? = some call) (hs : call.stage = .ensuring []) :
      Effect elo s { s.setStage k call (.returned true) with
        ratings := (s.ratings.applyMatchResult elo call.record.winnerUserId call.record.loserId).1
        applied := s.applied ++ [k] }
  | rename (userId : Int) (username : String) :
      Effect elo s { s with ratings := s.ratings.ensureUser userId username }

theorem effect_of_step {elo : Elo D} {s t : ResultCalls} {a : Action} (h : s.step elo a = some t) :
    Effect elo s t := by
  cases a with
  | begin record participants =>
      cases h
      exact .begin record participants
  | proceed k =>
      obtain ⟨call, hk, h⟩ := Option.bind_eq_some_iff.mp h
      split at h
      next hs =>
        by_cases hin : call.record.sessionId ∈ s.records
        · simp only [ResultRepository.saveIfAbsent_old hin, Bool.false_eq_true, if_false] at h
          cases h
          exact .skip hk hs hin
        · simp only [ResultRepository.saveIfAbsent_new hin, if_true] at h
          cases h
          exact .save hk hs hin
      next hs =>
        cases h
        exact .ensure hk hs
      next hs =>
        cases h
        exact .rate hk hs
      next => cases h
  | ensureUser userId username =>
      cases h
      exact .rename userId username

theorem step_save {elo : Elo D} {s : ResultCalls} {k : Nat} {call : FinalizeCall} (hk : s.calls[k]? = some call)
    (hs : call.stage = .saving) (hnew : call.record.sessionId ∉ s.records) : s.step elo (.proceed k) =
      some { s.setStage k call (.ensuring (usersToEnsure call.record call.participants)) with
        records := s.records.insert call.record.sessionId call.record } := by
  simp [step, hk, hs, ResultRepository.saveIfAbsent_new hnew, setStage]

theorem step_skip {elo : Elo D} {s : ResultCalls} {k : Nat} {call : FinalizeCall} (hk : s.calls[k]? = some call)
    (hs : call.stage = .saving) (hold : call.record.sessionId ∈ s.records) :
    s.step elo (.proceed k) = some (s.setStage k call (.returned false)) := by
  simp [step, hk, hs, ResultRepository.saveIfAbsent_old hold, setStage]

theorem step_ensure {elo : Elo D} {s : ResultCalls} {k : Nat} {call : FinalizeCall} {user : Int × String}
    {todo : List (Int × String)} (hk : s.calls[k]? = some call) (hs : call.stage = .ensuring (user :: todo)) :
    s.step elo (.proceed k) =
      some { s.setStage k call (.ensuring todo) with ratings := s.ratings.ensureUser user.1 user.2 } := by
  simp [step, hk, hs, setStage]

theorem step_rate {elo : Elo D} {s : ResultCalls} {k : Nat} {call : FinalizeCall} (hk : s.calls[k]? = some call)
    (hs : call.stage = .ensuring []) : s.step elo (.proceed k) =
      some { s.setStage k call (.returned true) with
        ratings := (s.ratings.applyMatchResult elo call.record.winnerUserId call.record.loserId).1
        applied := s.applied ++ [k] } := by
  simp [step, hk, hs, setStage]

def trueCalls (s : ResultCalls) : List FinalizeCall := s.applied.filterMap (s.calls[·]?)

def outcomes (elo : Elo D) (calls : List FinalizeCall) : Int → Standing :=
  calls.foldl (fun st call => RatingService.outcome elo st call.record.winnerUserId call.record.loserId) (fun _ => {})

/-- The stored records are those of the calls that have found their session id
free, one for each session id. -/
structure Stores (s : ResultCalls) : Prop where
  stored : ∀ id r, s.records.lookup id = some r ↔
    ∃ (k : Nat) (call : FinalizeCall), s.calls[k]? = some call ∧ call.Saved ∧ call.record = r ∧ r.sessionId = id
  one : ∀ (j k : Nat) (c d : FinalizeCall), s.calls[j]? = some c → s.calls[k]? = some d → c.Saved → d.Saved →
    c.record.sessionId = d.record.sessionId → j = k
  past : ∀ (k : Nat) (call : FinalizeCall), s.calls[k]? = some call → call.stage ≠ .saving →
    call.record.sessionId ∈ s.records

/-- The standings are what the calls that have returned true make of them. -/
structure Rates (elo : Elo D) (s : ResultCalls) : Prop where
  applied : ∀ k, k ∈ s.applied ↔ ∃ call : FinalizeCall, s.calls[k]? = some call ∧ call.stage = .returned true
  distinct : s.applied.Nodup
  rated : s.ratings.standing = outcomes elo s.trueCalls

theorem stores_empty : Stores {} where
  stored := by simp
  one := by simp
  past := by simp

theorem rates_empty (elo : Elo D) : Rates elo {} where
  applied := by simp
  distinct := List.nodup_nil
  rated := rfl

theorem Stores.begin {s : ResultCalls} (h : s.Stores) {call : FinalizeCall} (hs : call.stage = .saving) :
    Stores { s with calls := s.calls ++ [call] } where
  stored := by
    intro id r
    rw [h.stored]
    constructor
    · rintro ⟨k, c, hc, hrest⟩
      have hk := (List.getElem?_eq_some_iff.mp hc).1
      exact ⟨k, c, by rw [getElem?_concat_eq, if_neg (Nat.ne_of_lt hk)]; exact hc, hrest⟩
    · rintro ⟨k, c, hc, hsaved, hrest⟩
      rw [getElem?_concat_eq] at hc
      split at hc
      next =>
        cases hc
        exact absurd hs hsaved.1
      next => exact ⟨k, c, hc, hsaved, hrest⟩
  one := by
    intro j k c d hc hd hcs hds hid
    rw [getElem?_concat_eq] at hc hd
    split at hc
    next =>
      cases hc
      exact absurd hs hcs.1
    next =>
      split at hd
      next =>
        cases hd
        exact absurd hs hds.1
      next => exact h.one j k c d hc hd hcs hds hid
  past := by
    intro k c hc hne
    rw [getElem?_concat_eq] at hc
    split at hc
    next =>
      cases hc
      exact absurd hs hne
    next => exact h.past k c hc hne

theorem Stores.restage {s : ResultCalls} (h : s.Stores) {k : Nat} {call : FinalizeCall} (next : FinalizeCall)
    (hk : s.calls[k]? = some call) (hrecord : next.record = call.record) (hsaved : next.Saved ↔ call.Saved)
    (hin : call.record.sessionId ∈ s.records) : Stores { s with calls := s.calls.set k next } where
  stored := by
    intro id r
    rw [h.stored, exists_split_iff hk (fun c => c.Saved ∧ c.record = r ∧ r.sessionId = id),
      exists_set_iff hk (fun c => c.Saved ∧ c.record = r ∧ r.sessionId = id), hsaved, hrecord]
  one := by
    have hback : ∀ (j : Nat) (c : FinalizeCall), (s.calls.set k next)[j]? = some c → c.Saved →
        ∃ d : FinalizeCall, s.calls[j]? = some d ∧ d.Saved ∧ d.record = c.record := by
      intro j c hc hcs
      rw [getElem?_set_of_some hk] at hc
      split at hc
      next hj =>
        cases hc
        exact ⟨call, hj ▸ hk, hsaved.mp hcs, hrecord.symm⟩
      next => exact ⟨c, hc, hcs, rfl⟩
    intro i j c d hc hd hcs hds hid
    obtain ⟨c', hc', hcs', hcr⟩ := hback i c hc hcs
    obtain ⟨d', hd', hds', hdr⟩ := hback j d hd hds
    exact h.one i j c' d' hc' hd' hcs' hds' (by rw [hcr, hdr, hid])
  past := by
    intro j c hc hne
    rw [getElem?_set_of_some hk] at hc
    split at hc
    next =>
      cases hc
      exact hrecord ▸ hin
    next => exact h.past j c hc hne

theorem Stores.save {s : ResultCalls} (h : s.Stores) {k : Nat} {call next : FinalizeCall}
    (hk : s.calls[k]? = some call) (hs : call.stage = .saving) (hrecord : next.record = call.record)
    (hsaved : next.Saved) (hnew : call.record.sessionId ∉ s.records) :
    Stores { s with
      calls := s.calls.set k next, records := s.records.insert call.record.sessionId call.record } where
  stored := by
    intro id r
    have hunsaved : ¬ (call.Saved ∧ call.record = r ∧ r.sessionId = id) := fun hp => hp.1.1 hs
    have hstored := h.stored id r
    rw [exists_split_iff hk (fun c => c.Saved ∧ c.record = r ∧ r.sessionId = id), or_iff_right hunsaved] at hstored
    rw [exists_set_iff hk (fun c => c.Saved ∧ c.record = r ∧ r.sessionId = id), ← hstored, hrecord,
      Table.lookup_insert_eq]
    split
    next hid =>
      have hnone : s.records.lookup id ≠ some r := by
        intro hr
        exact hnew (hid ▸ (Table.mem_iff_lookup _ _).mpr ⟨r, hr⟩)
      simp only [hsaved, true_and, hnone, or_false, Option.some.injEq]
      constructor
      · rintro rfl
        exact ⟨rfl, hid.symm⟩
      · exact fun hp => hp.1
    next hid =>
      have hother : ¬ (next.Saved ∧ call.record = r ∧ r.sessionId = id) := by
        rintro ⟨-, rfl, rfl⟩
        exact hid rfl
      rw [or_iff_right hother]
  one := by
    have hother : ∀ (j : Nat) (c : FinalizeCall), s.calls[j]? = some c → c.Saved →
        c.record.sessionId ≠ next.record.sessionId := by
      intro j c hc hcs hid
      rw [hrecord] at hid
      exact hnew (hid ▸ h.past j c hc hcs.1)
    intro i j c d hc hd hcs hds hid
    rw [getElem?_set_of_some hk] at hc hd
    split at hc
    next hi =>
      cases hc
      split at hd
      next hj => exact hi.trans hj.symm
      next => exact absurd hid.symm (hother j d hd hds)
    next =>
      split at hd
      next =>
        cases hd
        exact absurd hid (hother i c hc hcs)
      next => exact h.one i j c d hc hd hcs hds hid
  past := by
    intro j c hc hne
    rw [AList.mem_insert]
    rw [getElem?_set_of_some hk] at hc
    split at hc
    next =>
      cases hc
      exact Or.inl (congrArg _ hrecord)
    next => exact Or.inr (h.past j c hc hne)

theorem stores_effect {elo : Elo D} {s t : ResultCalls} (h : s.Stores) (he : Effect elo s t) : t.Stores := by
  cases he with
  | begin record participants => exact h.begin rfl
  | save hk hs hnew => exact h.save hk hs rfl ⟨by simp, by simp⟩ hnew
  | skip hk hs hold =>
      refine h.restage _ hk rfl ⟨?_, ?_⟩ hold
      · intro hsaved
        exact absurd rfl hsaved.2
      · intro hsaved
        exact absurd hs hsaved.1
  | @ensure k call user todo hk hs =>
      have hsaved := h.restage { call with stage := .ensuring todo } hk rfl
        ⟨fun _ => ⟨by simp [hs], by simp [hs]⟩, fun _ => ⟨by simp, by simp⟩⟩ (h.past _ _ hk (by simp [hs]))
      exact ⟨hsaved.stored, hsaved.one, hsaved.past⟩
  | @rate k call hk hs =>
      have hsaved := h.restage { call with stage := .returned true } hk rfl
        ⟨fun _ => ⟨by simp [hs], by simp [hs]⟩, fun _ => ⟨by simp, by simp⟩⟩ (h.past _ _ hk (by simp [hs]))
      exact ⟨hsaved.stored, hsaved.one, hsaved.past⟩
  | rename => exact ⟨h.stored, h.one, h.past⟩

theorem Rates.keep {elo : Elo D} {s t : ResultCalls} (h : s.Rates elo) (happlied : t.applied = s.applied)
    (hcalls : ∀ (k : Nat) (call : FinalizeCall), call.stage = .returned true →
      (t.calls[k]? = some call ↔ s.calls[k]? = some call))
    (hratings : t.ratings.standing = s.ratings.standing) : t.Rates elo where
  applied := by
    intro k
    rw [happlied, h.applied]
    constructor
    · rintro ⟨call, hk, hs⟩
      exact ⟨call, (hcalls k call hs).mpr hk, hs⟩
    · rintro ⟨call, hk, hs⟩
      exact ⟨call, (hcalls k call hs).mp hk, hs⟩
  distinct := happlied ▸ h.distinct
  rated := by
    have htrue : t.trueCalls = s.trueCalls := by
      rw [trueCalls, trueCalls, happlied]
      apply List.filterMap_congr
      intro k hk
      obtain ⟨call, hc, hs⟩ := (h.applied k).mp hk
      rw [hc, (hcalls k call hs).mpr hc]
    rw [hratings, htrue, h.rated]

theorem returned_set {calls : List FinalizeCall} {k : Nat} {call next : FinalizeCall} (hk : calls[k]? = some call)
    (hs : call.stage ≠ .returned true) (hn : next.stage ≠ .returned true) (j : Nat) (c : FinalizeCall)
    (hc : c.stage = .returned true) : (calls.set k next)[j]? = some c ↔ calls[j]? = some c := by
  rw [getElem?_set_of_some hk]
  split
  next hj =>
    rw [hj, hk]
    constructor
    · rintro ⟨⟩
      exact absurd hc hn
    · rintro ⟨⟩
      exact absurd hc hs
  next => exact Iff.rfl

theorem rates_effect {elo : Elo D} {s t : ResultCalls} (h : s.Rates elo) (he : Effect elo s t) : t.Rates elo := by
  cases he with
  | begin record participants =>
      refine h.keep rfl ?_ rfl
      intro k c hc
      rw [getElem?_concat_eq]
      split
      next hk =>
        rw [hk, List.getElem?_eq_none (le_refl _)]
        constructor
        · rintro ⟨⟩
          cases hc
        · rintro ⟨⟩
      next => exact Iff.rfl
  | save hk hs => exact h.keep rfl (returned_set hk (by simp [hs]) (by simp)) rfl
  | skip hk hs => exact h.keep rfl (returned_set hk (by simp [hs]) (by simp)) rfl
  | ensure hk hs =>
      exact h.keep rfl (returned_set hk (by simp [hs]) (by simp)) (RatingService.standing_ensureUser _ _ _)
  | rename userId username => exact h.keep rfl (fun _ _ _ => Iff.rfl) (RatingService.standing_ensureUser _ _ _)
  | @rate k call hk hs =>
      have hout : k ∉ s.applied := by
        intro hin
        obtain ⟨c, hc, hret⟩ := (h.applied k).mp hin
        rw [hk] at hc
        cases hc
        rw [hs] at hret
        cases hret
      refine ⟨?_, ?_, ?_⟩
      · intro j
        simp only [setStage, List.mem_append, List.mem_singleton, getElem?_set_of_some hk, h.applied]
        split
        next hj => simp [hj]
        next hj => simp [hj]
      · exact List.nodup_append.mpr ⟨h.distinct, List.nodup_singleton k, fun a ha b hb hab =>
          hout (by rw [← List.mem_singleton.mp hb, ← hab]; exact ha)⟩
      · have htrue : trueCalls { s.setStage k call (.returned true) with applied := s.applied ++ [k] } =
            s.trueCalls ++ [{ call with stage := .returned true }] := by
          rw [trueCalls, List.filterMap_append, trueCalls]
          congr 1
          · apply List.filterMap_congr
            intro j hj
            have hne : j ≠ k := by
              rintro rfl
              exact hout hj
            exact (getElem?_set_of_some hk _ j).trans (if_neg hne)
          · simp [setStage, getElem?_set_of_some hk]
        change (s.ratings.applyMatchResult elo _ _).1.standing = outcomes elo (trueCalls _)
        rw [RatingService.standing_applyMatchResult, h.rated]
        change _ = outcomes elo (trueCalls { s.setStage k call (.returned true) with applied := s.applied ++ [k] })
        rw [htrue, outcomes, outcomes, List.foldl_append]
        rfl

theorem reachable_inv {elo : Elo D} {s : ResultCalls} (h : (machine elo).Reachable s) : s.Stores ∧ s.Rates elo := by
  refine Machine.Reachable.induction (P := fun s => s.Stores ∧ s.Rates elo) ⟨stores_empty, rates_empty elo⟩ ?_ h
  rintro s a t - ⟨hstores, hrates⟩ hs
  exact ⟨stores_effect hstores (effect_of_step hs), rates_effect hrates (effect_of_step hs)⟩

def finalizeOne (elo : Elo D) (stores : ResultRepository × RatingService) (call : FinalizeCall) :
    ResultRepository × RatingService :=
  let (records, ratings, _) := finalizeResult elo stores.1 stores.2 call.record call.participants
  (records, ratings)

def runCalls (elo : Elo D) (calls : List FinalizeCall) : ResultRepository × RatingService :=
  calls.foldl (finalizeOne elo) (∅, ∅)

theorem finalizeResult_old (elo : Elo D) {records : ResultRepository} {record : MatchResultRecord}
    (h : record.sessionId ∈ records) (ratings : RatingService) (participants : List SessionParticipant) :
    finalizeResult elo records ratings record participants = (records, ratings, false) := by
  simp [finalizeResult, ResultRepository.saveIfAbsent_old h]

theorem standing_ensureUsers (users : List (Int × String)) (ratings : RatingService) :
    (users.foldl (fun es p => es.ensureUser p.1 p.2) ratings).standing = ratings.standing := by
  induction users generalizing ratings with
  | nil => rfl
  | cons user users ih =>
      rw [List.foldl_cons, ih]
      exact RatingService.standing_ensureUser _ _ _

theorem finalizeOne_new (elo : Elo D) {stores : ResultRepository × RatingService} {call : FinalizeCall}
    (h : call.record.sessionId ∉ stores.1) :
    (finalizeOne elo stores call).1 = stores.1.insert call.record.sessionId call.record ∧
      (finalizeOne elo stores call).2.standing =
        RatingService.outcome elo stores.2.standing call.record.winnerUserId call.record.loserId := by
  simp only [finalizeOne, finalizeResult, ResultRepository.saveIfAbsent_new h, if_true]
  exact ⟨trivial, by rw [RatingService.standing_applyMatchResult, standing_ensureUsers]⟩

theorem runCalls_spec (elo : Elo D) {calls : List FinalizeCall} (h : (calls.map (·.record.sessionId)).Nodup) :
    (∀ id r, (runCalls elo calls).1.lookup id = some r ↔ ∃ call ∈ calls, call.record = r ∧ r.sessionId = id) ∧
      (runCalls elo calls).2.standing = outcomes elo calls := by
  induction calls using List.reverseRecOn with
  | nil => exact ⟨by simp [runCalls], rfl⟩
  | append_singleton calls call ih =>
      rw [List.map_append, List.map_singleton, List.nodup_append] at h
      obtain ⟨hstored, hratings⟩ := ih h.1
      have hnew : call.record.sessionId ∉ (runCalls elo calls).1 := by
        intro hin
        obtain ⟨r, hr⟩ := (Table.mem_iff_lookup _ _).mp hin
        obtain ⟨c, hc, hcr, hid⟩ := (hstored _ r).mp hr
        exact h.2.2 _ (List.mem_map_of_mem hc) _ (List.mem_singleton_self _) (hcr ▸ hid)
      have hrun : runCalls elo (calls ++ [call]) = finalizeOne elo (runCalls elo calls) call := by
        rw [runCalls, List.foldl_append]
        rfl
      obtain ⟨hrecords, hstanding⟩ := finalizeOne_new elo hnew
      refine ⟨?_, ?_⟩
      · intro id r
        rw [hrun, hrecords, Table.lookup_insert_eq]
        simp only [List.mem_append, List.mem_singleton]
        split
        next hid =>
          constructor
          · intro hr
            cases hr
            exact ⟨call, Or.inr rfl, rfl, hid.symm⟩
          · rintro ⟨c, hc | rfl, rfl, hcid⟩
            · exact absurd (hcid.trans hid) (h.2.2 _ (List.mem_map_of_mem hc) _ (List.mem_singleton_self _))
            · rfl
        next hid =>
          rw [hstored]
          constructor
          · rintro ⟨c, hc, hrest⟩
            exact ⟨c, Or.inl hc, hrest⟩
          · rintro ⟨c, hc | rfl, rfl, hcid⟩
            · exact ⟨c, hc, rfl, hcid⟩
            · exact absurd hcid.symm hid
      · rw [hrun, hstanding, hratings, outcomes, outcomes, List.foldl_append]
        rfl

/-- All calls have returned: for each session id exactly one of them true, and
the stores are what these calls make of them in the order of their
ApplyMatchResult steps. -/
structure Serial (elo : Elo D) (s : ResultCalls) : Prop where
  one : ∀ call ∈ s.calls, ∃ (k : Nat) (winner : FinalizeCall), s.calls[k]? = some winner ∧
    winner.record.sessionId = call.record.sessionId ∧ winner.stage = .returned true ∧
    s.records.lookup call.record.sessionId = some winner.record ∧
    ∀ (j : Nat) (other : FinalizeCall), s.calls[j]? = some other →
      other.record.sessionId = call.record.sessionId → other.stage = .returned true → j = k
  applied : ∀ k, k ∈ s.applied ↔ ∃ call : FinalizeCall, s.calls[k]? = some call ∧ call.stage = .returned true
  distinct : s.applied.Nodup
  records : ∀ id, s.records.lookup id = (runCalls elo s.trueCalls).1.lookup id
  ratings : ∀ u, s.ratings.standing u = (runCalls elo s.trueCalls).2.standing u

theorem Rates.mem_trueCalls {elo : Elo D} {s : ResultCalls} (h : s.Rates elo) (call : FinalizeCall) :
    call ∈ s.trueCalls ↔ call ∈ s.calls ∧ call.stage = .returned true := by
  rw [trueCalls, List.mem_filterMap]
  constructor
  · rintro ⟨k, hk, hc⟩
    obtain ⟨c, hc', hs⟩ := (h.applied k).mp hk
    rw [hc] at hc'
    cases hc'
    exact ⟨List.mem_of_getElem? hc, hs⟩
  · rintro ⟨hin, hs⟩
    obtain ⟨k, hk⟩ := List.mem_iff_getElem?.mp hin
    exact ⟨k, (h.applied k).mpr ⟨call, hk, hs⟩, hk⟩

theorem saved_of_returned {call : FinalizeCall} (h : call.stage = .returned true) : call.Saved :=
  ⟨by simp [h], by simp [h]⟩

theorem distinct_trueCalls {elo : Elo D} {s : ResultCalls} (hstores : s.Stores) (hrates : s.Rates elo) :
    (s.trueCalls.map (·.record.sessionId)).Nodup := by
  rw [List.Nodup, List.pairwise_map, trueCalls, List.pairwise_filterMap]
  apply hrates.distinct.imp_of_mem
  intro j k hj hk hne c hc d hd hid
  obtain ⟨c', hc', hcs⟩ := (hrates.applied j).mp hj
  obtain ⟨d', hd', hds⟩ := (hrates.applied k).mp hk
  rw [hc] at hc'
  rw [hd] at hd'
  cases hc'
  cases hd'
  exact hne (hstores.one j k c d hc hd (saved_of_returned hcs) (saved_of_returned hds) hid)

theorem saved_iff {call : FinalizeCall} (h : ∃ b, call.stage = .returned b) :
    call.Saved ↔ call.stage = .returned true := by
  obtain ⟨b, hb⟩ := h
  cases b <;> simp [FinalizeCall.Saved, hb]

theorem serial_of_returned {elo : Elo D} {s : ResultCalls} (hstores : s.Stores) (hrates : s.Rates elo)
    (h : ∀ call ∈ s.calls, ∃ b, call.stage = .returned b) : s.Serial elo := by
  obtain ⟨hrecords, hratings⟩ := runCalls_spec elo (distinct_trueCalls hstores hrates)
  refine ⟨?_, hrates.applied, hrates.distinct, ?_, ?_⟩
  · intro call hc
    obtain ⟨b, hb⟩ := h call hc
    obtain ⟨i, hi⟩ := List.mem_iff_getElem?.mp hc
    obtain ⟨r, hr⟩ := (Table.mem_iff_lookup _ _).mp (hstores.past i call hi (by simp [hb]))
    obtain ⟨k, winner, hk, hsaved, rfl, hid⟩ := (hstores.stored _ r).mp hr
    refine ⟨k, winner, hk, hid, (saved_iff (h winner (List.mem_of_getElem? hk))).mp hsaved, hr, ?_⟩
    intro j other hj hoid hos
    exact hstores.one j k other winner hj hk (saved_of_returned hos) hsaved (hoid.trans hid.symm)
  · intro id
    apply Option.ext
    intro r
    rw [hstores.stored, hrecords]
    constructor
    · rintro ⟨k, call, hk, hsaved, hrest⟩
      have hin := List.mem_of_getElem? hk
      exact ⟨call, (hrates.mem_trueCalls call).mpr ⟨hin, (saved_iff (h call hin)).mp hsaved⟩, hrest⟩
    · rintro ⟨call, hc, hrest⟩
      obtain ⟨hin, hs⟩ := (hrates.mem_trueCalls call).mp hc
      obtain ⟨k, hk⟩ := List.mem_iff_getElem?.mp hin
      exact ⟨k, call, hk, saved_of_returned hs, hrest⟩
  · intro u
    rw [hrates.rated, hratings]

theorem stored_effect {elo : Elo D} {s t : ResultCalls} (he : Effect elo s t) {id : String} {r : MatchResultRecord}
    (h : s.records.lookup id = some r) : t.records.lookup id = some r := by
  cases he with
  | begin | skip | ensure | rate | rename => exact h
  | @save k call hk hs hnew =>
      have hne : id ≠ call.record.sessionId := by
        rintro rfl
        exact hnew ((Table.mem_iff_lookup _ _).mpr ⟨r, h⟩)
      exact (AList.lookup_insert_ne hne).trans h

/-- However the locked steps of the calls and the logins interleave, a record
once stored stays, a call made again changes nothing, and when all calls have
returned the stores are what the true calls make of them one by one. -/
theorem finalize_serial {elo : Elo D} {s : ResultCalls} (hr : (machine elo).Reachable s) :
    (∀ t, (machine elo).Leads s t → ∀ id r, s.records.lookup id = some r → t.records.lookup id = some r) ∧
      (∀ call ∈ s.calls, call.stage ≠ .saving → ∀ record participants,
        record.sessionId = call.record.sessionId →
        finalizeResult elo s.records s.ratings record participants = (s.records, s.ratings, false)) ∧
      (∀ (k : Nat) (call : FinalizeCall), s.calls[k]? = some call → call.stage = .saving →
        call.record.sessionId ∈ s.records →
        step elo s (.proceed k) = some (s.setStage k call (.returned false))) ∧
      ((∀ call ∈ s.calls, ∃ b, call.stage = .returned b) → s.Serial elo) := by
  obtain ⟨hstores, hrates⟩ := reachable_inv hr
  refine ⟨?_, ?_, ?_, serial_of_returned hstores hrates⟩
  · intro t ht id r h
    exact ht.preserves (P := fun t => t.records.lookup id = some r)
      (fun _ _ _ hp hs => stored_effect (effect_of_step hs) hp) h
  · intro call hc hs record participants hid
    obtain ⟨k, hk⟩ := List.mem_iff_getElem?.mp hc
    exact finalizeResult_old elo (hid ▸ hstores.past k call hk hs) s.ratings participants
  · intro k call hk hs hin
    exact step_skip hk hs hin

def wonBy (winnerUserId : Int) : MatchResultRecord := ⟨"session-1", 1, 2, winnerUserId, 5, 0, ⟨5, []⟩⟩

/-- Two calls for one session, of which the second comes first to its
SaveIfAbsent, and a login of user 1 in between. -/
theorem finalize_serial_twice : ∃ s, (machine Elo.even).run
    ([.begin (wonBy 1) [⟨1, "kim"⟩, ⟨2, "lee"⟩], .begin (wonBy 2) [⟨1, "kim"⟩, ⟨2, "lee"⟩], .proceed 1, .proceed 0,
      .ensureUser 1 "kim"] ++ List.replicate 5 (.proceed 1)) = some s ∧
      s.trueCalls.map (·.record) = [wonBy 2] ∧ s.ratings.standing 2 = ⟨1016, 1, 0⟩ ∧ s.Serial Elo.even := by
  obtain ⟨s, hs, hr, hcalls, hstanding, hreturned⟩ := Machine.exists_of_run (M := machine Elo.even)
    ([.begin (wonBy 1) [⟨1, "kim"⟩, ⟨2, "lee"⟩], .begin (wonBy 2) [⟨1, "kim"⟩, ⟨2, "lee"⟩], .proceed 1, .proceed 0,
      .ensureUser 1 "kim"] ++ List.replicate 5 (.proceed 1))
    (fun s => s.trueCalls.map (·.record) = [wonBy 2] ∧ s.ratings.standing 2 = ⟨1016, 1, 0⟩ ∧
      ∀ call ∈ s.calls, call.stage = .returned true ∨ call.stage = .returned false) (by decide)
  refine ⟨s, hs, hcalls, hstanding, (finalize_serial hr).2.2.2 ?_⟩
  intro call hc
  rcases hreturned call hc with h | h
  · exact ⟨true, h⟩
  · exact ⟨false, h⟩

end ResultCalls

end GameServer
