import GameServer.Machine
import Mathlib.Data.List.Infix
import Mathlib.Logic.Function.Basic

namespace GameServer

/-- A reader of a feed: how much was published before it joined, and what it
was given since. -/
structure Reader (ε : Type) where
  joined : Bool := false
  since : Nat := 0
  received : List ε := []
  shut : Bool := false
  gone : Bool := false

/-- What is published on one topic goes to the reader that joined last, one
event at a time. -/
structure Feed (ε : Type) where
  published : List ε := []
  current : Option Nat := none
  waiting : Option (Nat × ε) := none
  readers : Nat → Reader ε := fun _ => {}

namespace Reader

variable {ε : Type}

def take (r : Reader ε) (e : ε) (fits : Bool) : Reader ε :=
  if r.shut = false ∧ fits = true then { r with received := r.received ++ [e] } else { r with shut := true }

def fade (r : Reader ε) (shut gone : Bool) : Reader ε := { r with shut := r.shut || shut, gone := r.gone || gone }

end Reader

namespace Feed

variable {ε : Type}

inductive Action (ε : Type)
  | publish (e : ε)
  | join (c : Nat) (shut : Bool)
  | detach
  | deliver (fits : Bool)
  | fade (c : Nat) (shut gone : Bool)

def receiver (f : Feed ε) : Option Nat := f.current.filter fun c => !(f.readers c).gone

def step (f : Feed ε) : Action ε → Option (Feed ε)
  | .publish e =>
    if f.waiting.isSome then none
    else some { f with published := f.published ++ [e], waiting := f.receiver.map fun c => (c, e) }
  | .join c shut =>
    if (f.readers c).joined then none
    else some { f with
      current := some c
      readers := Function.update f.readers c { joined := true, since := f.published.length, shut := shut } }
  | .detach => some { f with current := none }
  | .deliver fits =>
    f.waiting.map fun w =>
      { f with waiting := none, readers := Function.update f.readers w.1 ((f.readers w.1).take w.2 fits) }
  | .fade c shut gone => some { f with readers := Function.update f.readers c ((f.readers c).fade shut gone) }

def machine (ε : Type) : Machine (Feed ε) (Action ε) where
  init := {}
  step := step

def due (f : Feed ε) (c : Nat) : List ε := ((f.waiting.filter (·.1 = c)).map (·.2)).toList

def window (f : Feed ε) (c : Nat) : List ε := f.published.drop (f.readers c).since

def reach (f : Feed ε) (c : Nat) : Nat := (f.readers c).since + (f.readers c).received.length + (f.due c).length

def Apart (f : Feed ε) (c d : Nat) : Prop := f.reach c ≤ (f.readers d).since ∨ f.reach d ≤ (f.readers c).since

structure Inv (f : Feed ε) : Prop where
  current : ∀ c, f.current = some c → (f.readers c).joined = true
  waiting : ∀ c e, f.waiting = some (c, e) → (f.readers c).joined = true
  reach : ∀ c, (f.readers c).joined = true → f.reach c ≤ f.published.length
  received : ∀ c, (f.readers c).joined = true → (f.readers c).received <+: f.window c
  coming : ∀ c, (f.readers c).joined = true → (f.readers c).shut = false →
    (f.readers c).received ++ f.due c <+: f.window c
  whole : ∀ c, f.current = some c → (f.readers c).gone = false → (f.readers c).shut = false →
    (f.readers c).received ++ f.due c = f.window c
  apart : ∀ c d, c ≠ d → (f.readers c).joined = true → (f.readers d).joined = true → f.Apart c d
  latest : ∀ c d, f.current = some c → d ≠ c → (f.readers d).joined = true → f.reach d ≤ (f.readers c).since

theorem due_of_none {f : Feed ε} (h : f.waiting = none) (c : Nat) : f.due c = [] := by simp [due, h]

theorem due_of_some {f : Feed ε} {d : Nat} {e : ε} (h : f.waiting = some (d, e)) (c : Nat) :
    f.due c = if d = c then [e] else [] := by
  by_cases hd : d = c
  · simp [due, h, hd, Option.filter]
  · simp [due, h, hd, Option.filter]

theorem due_length_le (f : Feed ε) (c : Nat) : (f.due c).length ≤ 1 := by
  cases h : f.waiting with
  | none => simp [due_of_none h]
  | some w =>
      rw [due_of_some (d := w.1) (e := w.2) h]
      split <;> simp

theorem inv_init : (machine ε).init.Inv := by
  constructor <;> simp [machine]

theorem window_publish {f g : Feed ε} {e : ε} (hp : g.published = f.published ++ [e]) (hr : g.readers = f.readers)
    {c : Nat} (hc : (f.readers c).since ≤ f.published.length) : g.window c = f.window c ++ [e] := by
  rw [window, window, hp, hr, List.drop_append_of_le_length hc]

theorem Inv.publish {f : Feed ε} (h : f.Inv) (hw : f.waiting = none) (e : ε) :
    ({ f with published := f.published ++ [e], waiting := f.receiver.map fun c => (c, e) } : Feed ε).Inv := by
  obtain ⟨g, hg⟩ : ∃ g : Feed ε, g = { f with
    published := f.published ++ [e], waiting := f.receiver.map fun c => (c, e) } := ⟨_, rfl⟩
  have hreaders : g.readers = f.readers := by rw [hg]
  have hdue : ∀ c, g.due c = if f.receiver = some c then [e] else [] := by
    intro c
    cases hr : f.receiver with
    | none => simp [due, hg, hr]
    | some d =>
        rw [due_of_some (d := d) (e := e) (by rw [hg, hr]; rfl)]
        simp only [Option.some.injEq]
  have hreceiver : ∀ c, f.receiver = some c ↔ f.current = some c ∧ (f.readers c).gone = false := by
    intro c
    simp [receiver, Option.filter_eq_some_iff]
  have hsince : ∀ c, (f.readers c).joined = true → (f.readers c).since + (f.readers c).received.length ≤
      f.published.length := by
    intro c hc
    have hreach := h.reach c hc
    simp only [Feed.reach] at hreach
    omega
  have hwindow : ∀ c, (f.readers c).joined = true → g.window c = f.window c ++ [e] := by
    intro c hc
    have := hsince c hc
    exact window_publish (by rw [hg]) hreaders (by omega)
  have hother : ∀ c, f.receiver ≠ some c → g.reach c = f.reach c := by
    intro c hc
    rw [Feed.reach, Feed.reach, hdue, if_neg hc, hreaders, due_of_none hw]
  have hlast : ∀ c d, f.receiver = some c → d ≠ c → (f.readers d).joined = true →
      g.reach d ≤ (f.readers c).since := by
    intro c d hc hne hd
    rw [hother d (by rw [hc]; simpa using Ne.symm hne)]
    exact h.latest c d ((hreceiver c).mp hc).1 hne hd
  rw [← hg]
  constructor
  · intro c hc
    rw [hg] at hc
    rw [hreaders]
    exact h.current c hc
  · intro c e' hc
    simp only [hg, Option.map_eq_some_iff, Prod.mk.injEq] at hc
    obtain ⟨d, hd, rfl, -⟩ := hc
    rw [hreaders]
    exact h.current d ((hreceiver d).mp hd).1
  · intro c hc
    rw [hreaders] at hc
    have hlen : g.published.length = f.published.length + 1 := by simp [hg]
    have hle := g.due_length_le c
    have := hsince c hc
    rw [Feed.reach, hreaders, hlen]
    omega
  · intro c hc
    rw [hreaders] at hc
    rw [hwindow c hc, hreaders]
    exact (h.received c hc).trans (List.prefix_append _ _)
  · intro c hc hshut
    rw [hreaders] at hc hshut
    rw [hwindow c hc, hreaders, hdue]
    split
    next hr =>
      obtain ⟨hcur, hgone⟩ := (hreceiver c).mp hr
      have hwhole := h.whole c hcur hgone hshut
      rw [due_of_none hw, List.append_nil] at hwhole
      rw [hwhole]
    next => simpa using (h.received c hc).trans (List.prefix_append _ _)
  · intro c hc hgone hshut
    rw [hg] at hc
    rw [hreaders] at hgone hshut
    have hwhole := h.whole c hc hgone hshut
    rw [due_of_none hw, List.append_nil] at hwhole
    rw [hwindow c (h.current c hc), hreaders, hdue, if_pos ((hreceiver c).mpr ⟨hc, hgone⟩), hwhole]
  · intro c d hne hc hd
    rw [hreaders] at hc hd
    rw [Apart, hreaders]
    by_cases hrc : f.receiver = some c
    · exact Or.inr (hlast c d hrc (Ne.symm hne) hd)
    · by_cases hrd : f.receiver = some d
      · exact Or.inl (hlast d c hrd hne hc)
      · rw [hother c hrc, hother d hrd]
        exact h.apart c d hne hc hd
  · intro c d hc hne hd
    rw [hg] at hc
    rw [hreaders] at hd ⊢
    have hrd : f.receiver ≠ some d := by
      intro hrd
      have hcur := ((hreceiver d).mp hrd).1
      rw [hc] at hcur
      exact hne (Option.some.inj hcur).symm
    rw [hother d hrd]
    exact h.latest c d hc hne hd

structure Keeps (f g : Feed ε) : Prop where
  published : g.published = f.published
  current : g.current = f.current
  waiting : ∀ c e, g.waiting = some (c, e) → f.waiting = some (c, e)
  joined : ∀ c, (g.readers c).joined = (f.readers c).joined
  since : ∀ c, (g.readers c).since = (f.readers c).since
  reach : ∀ c, g.reach c ≤ f.reach c
  received : ∀ c, (g.readers c).received <+: (f.readers c).received ∨
    ((f.readers c).shut = false ∧ (g.readers c).received <+: (f.readers c).received ++ f.due c)
  going : ∀ c, (g.readers c).gone = false → (f.readers c).gone = false
  total : ∀ c, (g.readers c).shut = false → (f.readers c).shut = false ∧
    (g.readers c).received ++ g.due c = (f.readers c).received ++ f.due c

theorem Inv.keeps {f g : Feed ε} (h : f.Inv) (hk : Keeps f g) : g.Inv := by
  have hwindow : ∀ c, g.window c = f.window c := by
    intro c
    rw [window, window, hk.published, hk.since]
  constructor
  · intro c hc
    rw [hk.joined]
    exact h.current c (hk.current ▸ hc)
  · intro c e hc
    rw [hk.joined]
    exact h.waiting c e (hk.waiting c e hc)
  · intro c hc
    rw [hk.joined] at hc
    rw [hk.published]
    exact (hk.reach c).trans (h.reach c hc)
  · intro c hc
    rw [hk.joined] at hc
    rw [hwindow]
    rcases hk.received c with hsame | ⟨hshut, hmore⟩
    · exact hsame.trans (h.received c hc)
    · exact hmore.trans (h.coming c hc hshut)
  · intro c hc hshut
    rw [hk.joined] at hc
    obtain ⟨hopen, htotal⟩ := hk.total c hshut
    rw [htotal, hwindow]
    exact h.coming c hc hopen
  · intro c hc hgone hshut
    obtain ⟨hopen, htotal⟩ := hk.total c hshut
    rw [htotal, hwindow]
    exact h.whole c (hk.current ▸ hc) (hk.going c hgone) hopen
  · intro c d hne hc hd
    rw [hk.joined] at hc hd
    rw [Apart, hk.since, hk.since]
    exact (h.apart c d hne hc hd).imp (hk.reach c).trans (hk.reach d).trans
  · intro c d hc hne hd
    rw [hk.joined] at hd
    rw [hk.since]
    exact (hk.reach d).trans (h.latest c d (hk.current ▸ hc) hne hd)

theorem keeps_fade (f : Feed ε) (c : Nat) (shut gone : Bool) :
    Keeps f { f with readers := Function.update f.readers c ((f.readers c).fade shut gone) } := by
  obtain ⟨g, hg⟩ : ∃ g : Feed ε, g = { f with
    readers := Function.update f.readers c ((f.readers c).fade shut gone) } := ⟨_, rfl⟩
  have hself : g.readers c = (f.readers c).fade shut gone := by
    rw [hg]
    exact Function.update_self _ _ _
  have hother : ∀ d, d ≠ c → g.readers d = f.readers d := by
    intro d hd
    rw [hg]
    exact Function.update_of_ne hd _ _
  have hdue : ∀ d, g.due d = f.due d := by
    intro d
    rw [hg]
    rfl
  rw [← hg]
  constructor
  case published | current | waiting => simp [hg]
  all_goals
    intro d
    by_cases hd : d = c
    · subst hd
      grind [Feed.reach, Reader.fade]
    · grind [Feed.reach]

theorem keeps_deliver {f : Feed ε} {c : Nat} {e : ε} (hw : f.waiting = some (c, e)) (fits : Bool) :
    Keeps f { f with waiting := none, readers := Function.update f.readers c ((f.readers c).take e fits) } := by
  obtain ⟨g, hg⟩ : ∃ g : Feed ε, g = { f with
    waiting := none, readers := Function.update f.readers c ((f.readers c).take e fits) } := ⟨_, rfl⟩
  have hnone : ∀ d, g.due d = [] := fun d => due_of_none (by rw [hg]) d
  have hself : g.readers c = (f.readers c).take e fits := by
    rw [hg]
    exact Function.update_self _ _ _
  have hother : ∀ d, d ≠ c → g.readers d = f.readers d := by
    intro d hd
    rw [hg]
    exact Function.update_of_ne hd _ _
  have hdue : f.due c = [e] := by rw [due_of_some hw, if_pos rfl]
  have hothers : ∀ d, d ≠ c → f.due d = [] := fun d hd => by rw [due_of_some hw, if_neg (Ne.symm hd)]
  rw [← hg]
  constructor
  case published | current => rw [hg]
  case waiting =>
    intro d e' hd
    rw [hg] at hd
    cases hd
  all_goals
    intro d
    by_cases hd : d = c
    · subst hd
      grind [Feed.reach, Reader.take]
    · grind [Feed.reach]

theorem Inv.join {f : Feed ε} (h : f.Inv) {c : Nat} (hnew : (f.readers c).joined = false) (shut : Bool) :
    ({ f with
      current := some c
      readers := Function.update f.readers c
        { joined := true, since := f.published.length, shut := shut } } : Feed ε).Inv := by
  obtain ⟨g, hg⟩ : ∃ g : Feed ε, g = { f with
    current := some c
    readers := Function.update f.readers c { joined := true, since := f.published.length, shut := shut } } := ⟨_, rfl⟩
  have hself : g.readers c = { joined := true, since := f.published.length, shut := shut } := by
    rw [hg]
    exact Function.update_self _ _ _
  have hother : ∀ d, d ≠ c → g.readers d = f.readers d := by
    intro d hd
    rw [hg]
    exact Function.update_of_ne hd _ _
  have hdue : ∀ d, g.due d = f.due d := by
    intro d
    rw [hg]
    rfl
  have hnothing : f.due c = [] := by
    cases hw : f.waiting with
    | none => exact due_of_none hw c
    | some w =>
        rw [due_of_some (d := w.1) (e := w.2) hw, if_neg]
        rintro rfl
        rw [h.waiting w.1 w.2 hw] at hnew
        cases hnew
  have hpublished : g.published = f.published := by rw [hg]
  have hempty : g.window c = [] := by rw [window, hself, hpublished, List.drop_length]
  have hreach : ∀ d, d ≠ c → g.reach d = f.reach d := by
    intro d hd
    rw [Feed.reach, Feed.reach, hother d hd, hdue]
  have hold : ∀ d, d ≠ c → (g.readers d).joined = true → g.reach d ≤ (g.readers c).since := by
    intro d hd hj
    rw [hother d hd] at hj
    rw [hreach d hd, hself]
    exact h.reach d hj
  rw [← hg]
  constructor
  · intro d hd
    rw [hg] at hd
    cases hd
    rw [hself]
  · intro d e hd
    by_cases hdc : d = c
    · subst hdc
      rw [hself]
    · rw [hother d hdc]
      exact h.waiting d e (by rwa [hg] at hd)
  · intro d hd
    by_cases hdc : d = c
    · subst hdc
      simp [Feed.reach, hself, hdue, hnothing, hpublished]
    · rw [hreach d hdc, hpublished]
      exact h.reach d (hother d hdc ▸ hd)
  · intro d hd
    by_cases hdc : d = c
    · subst hdc
      simp [hself]
    · rw [window, hother d hdc, hpublished]
      exact h.received d (hother d hdc ▸ hd)
  · intro d hd hshut
    by_cases hdc : d = c
    · subst hdc
      simp [hself, hdue, hnothing]
    · rw [window, hother d hdc, hpublished, hdue]
      exact h.coming d (hother d hdc ▸ hd) (hother d hdc ▸ hshut)
  · intro d hd _ _
    rw [hg] at hd
    cases hd
    rw [hempty, hdue, hnothing, hself]
    rfl
  · intro a b hne ha hb
    by_cases hac : a = c
    · subst hac
      exact Or.inr (hold b (Ne.symm hne) hb)
    · by_cases hbc : b = c
      · subst hbc
        exact Or.inl (hold a hne ha)
      · rw [Apart, hreach a hac, hreach b hbc, hother a hac, hother b hbc]
        exact h.apart a b hne (hother a hac ▸ ha) (hother b hbc ▸ hb)
  · intro d b hd hne hb
    rw [hg] at hd
    cases hd
    exact hold b hne hb

theorem Inv.step {f g : Feed ε} {a : Action ε} (h : f.Inv) (hs : f.step a = some g) : g.Inv := by
  cases a with
  | publish e =>
      simp only [Feed.step] at hs
      split at hs
      next => cases hs
      next hw =>
        cases hs
        exact h.publish (by simpa using hw) e
  | join c shut =>
      simp only [Feed.step] at hs
      split at hs
      next => cases hs
      next hnew =>
        cases hs
        exact h.join (by simpa using hnew) shut
  | detach =>
      cases hs
      exact ⟨by simp, h.waiting, h.reach, h.received, h.coming, by simp, h.apart, by simp⟩
  | deliver fits =>
      obtain ⟨⟨c, e⟩, hw, rfl⟩ := Option.map_eq_some_iff.mp hs
      exact h.keeps (keeps_deliver hw fits)
  | fade c shut gone =>
      cases hs
      exact h.keeps (keeps_fade f c shut gone)

/-- Each reader has a contiguous part of the feed, no two have a common one,
and the reader that joined last has all of it since. -/
theorem reachable_inv {f : Feed ε} (h : (machine ε).Reachable f) : f.Inv :=
  h.induction inv_init fun _ _ _ _ hi hs => hi.step hs

end Feed

end GameServer
