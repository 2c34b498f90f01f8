import GameServer.Blocks
import GameServer.Realtime

namespace GameServer

/-- The connection that the weak_ptr belongs to, and its address. -/
structure RealtimeCoordinator.Entry where
  session : Nat
  raw : Nat
deriving DecidableEq, Repr

structure RealtimeCoordinator where
  connections : Table Int RealtimeCoordinator.Entry := ∅
  websocketActive : Nat := 0

namespace RealtimeCoordinator

def register (s : RealtimeCoordinator) (userId : Int) (session raw : Nat) : RealtimeCoordinator :=
  let connections := s.connections.insert userId ⟨session, raw⟩
  { connections := connections, websocketActive := connections.entries.length }

def unregister (s : RealtimeCoordinator) (userId : Int) (raw : Nat) : RealtimeCoordinator :=
  match s.connections.lookup userId with
  | none => s
  | some entry =>
    if entry.raw = raw then
      let connections := s.connections.erase userId
      { connections := connections, websocketActive := connections.entries.length }
    else s

theorem lookup_unregister_iff (s : RealtimeCoordinator) (userId : Int) (raw : Nat) (u : Int) (entry : Entry) :
    (s.unregister userId raw).connections.lookup u = some entry ↔
      s.connections.lookup u = some entry ∧ ¬ (u = userId ∧ entry.raw = raw) := by
  rw [unregister]
  split
  next hnone =>
    refine (and_iff_left_of_imp ?_).symm
    rintro h ⟨rfl, -⟩
    rw [hnone] at h
    cases h
  next found hfound =>
    split
    next hraw =>
      change AList.lookup u (AList.erase _ _) = _ ↔ _
      rw [Table.lookup_erase_eq]
      by_cases hu : u = userId
      · subst hu
        rw [if_pos rfl]
        constructor
        · intro h
          cases h
        · rintro ⟨h, hno⟩
          rw [hfound] at h
          cases h
          exact absurd ⟨rfl, hraw⟩ hno
      · rw [if_neg hu]
        exact (and_iff_left fun h => hu h.1).symm
    next hraw =>
      refine (and_iff_left_of_imp ?_).symm
      rintro h ⟨rfl, he⟩
      rw [hfound] at h
      cases h
      exact hraw he

theorem unregister_active {s : RealtimeCoordinator} (h : s.websocketActive = s.connections.entries.length)
    (userId : Int) (raw : Nat) :
    (s.unregister userId raw).websocketActive = (s.unregister userId raw).connections.entries.length := by
  rw [unregister]
  split
  next => exact h
  next =>
    split
    next => rfl
    next => exact h

end RealtimeCoordinator

structure Registration where
  session : Nat
  userId : Int
  raw : Nat
deriving DecidableEq, Repr

structure Registry where
  coordinator : RealtimeCoordinator := {}
  registered : List Registration := []
  unregistered : List Nat := []

namespace Registry

inductive Action
  | register (r : Registration)
  | unregister (session : Nat)
deriving DecidableEq, Repr

/-- A connection registers once and unregisters once, after that. Its address
can be used again from then on only. -/
def step (s : Registry) : Action → Option Registry
  | .register r =>
    if ∃ other ∈ s.registered, other.session = r.session ∨ (other.session ∉ s.unregistered ∧ other.raw = r.raw) then
      none
    else some {
      coordinator := s.coordinator.register r.userId r.session r.raw
      registered := s.registered ++ [r]
      unregistered := s.unregistered }
  | .unregister session =>
    (s.registered.find? (·.session = session)).bind fun r =>
      if session ∈ s.unregistered then none
      else some {
        coordinator := s.coordinator.unregister r.userId r.raw
        registered := s.registered
        unregistered := s.unregistered ++ [session] }

def machine : Machine Registry Action where
  init := {}
  step := step

def Latest (registered : List Registration) (r : Registration) : Prop :=
  ∃ before after, registered = before ++ r :: after ∧ ∀ other ∈ after, other.userId ≠ r.userId

/-- The entry of a user is that of the last connection of the user to register,
until that one unregisters. -/
structure Attached (s : Registry) : Prop where
  entry : ∀ userId session raw, s.coordinator.connections.lookup userId = some ⟨session, raw⟩ ↔
    Latest s.registered ⟨session, userId, raw⟩ ∧ session ∉ s.unregistered
  active : s.coordinator.websocketActive = s.coordinator.connections.entries.length

theorem Latest.mem {registered : List Registration} {r : Registration} (h : Latest registered r) : r ∈ registered := by
  obtain ⟨before, after, rfl, -⟩ := h
  simp

theorem latest_concat (registered : List Registration) (new r : Registration) :
    Latest (registered ++ [new]) r ↔ r = new ∨ (r.userId ≠ new.userId ∧ Latest registered r) := by
  constructor
  · rintro ⟨before, after, hsplit, hafter⟩
    rcases List.eq_nil_or_concat after with rfl | ⟨after, last, rfl⟩
    · obtain ⟨-, hlast⟩ := List.append_inj' hsplit rfl
      exact Or.inl (List.cons.inj hlast).1.symm
    · rw [List.concat_eq_append] at hsplit hafter
      obtain ⟨hfront, hlast⟩ := List.append_inj' (hsplit.trans (List.append_assoc before (r :: after) [last]).symm) rfl
      rw [(List.cons.inj hlast).1]
      exact Or.inr ⟨Ne.symm (hafter last (by simp)), before, after, hfront, fun other ho => hafter other (by simp [ho])⟩
  · rintro (rfl | ⟨hne, before, after, rfl, hafter⟩)
    · exact ⟨registered, [], rfl, by simp⟩
    · refine ⟨before, after ++ [new], by simp, ?_⟩
      intro other ho
      rcases List.mem_append.mp ho with ho | ho
      · exact hafter other ho
      · rw [List.mem_singleton.mp ho]
        exact Ne.symm hne

theorem inj_concat {registered : List Registration} {new : Registration} {p : Registration → Prop}
    {key : Registration → Nat}
    (h : ∀ a ∈ registered, ∀ b ∈ registered, p a → p b → key a = key b → a = b)
    (hnew : ∀ a ∈ registered, p a → key a ≠ key new) :
    ∀ a ∈ registered ++ [new], ∀ b ∈ registered ++ [new], p a → p b → key a = key b → a = b := by
  intro a ha b hb hpa hpb he
  rcases List.mem_append.mp ha with ha | ha <;> rcases List.mem_append.mp hb with hb | hb
  · exact h a ha b hb hpa hpb he
  · rw [List.mem_singleton.mp hb] at he
    exact absurd he (hnew a ha hpa)
  · rw [List.mem_singleton.mp ha] at he
    exact absurd he.symm (hnew b hb hpb)
  · rw [List.mem_singleton.mp ha, List.mem_singleton.mp hb]

structure Inv (s : Registry) : Prop where
  once : ∀ r ∈ s.registered, ∀ other ∈ s.registered, r.session = other.session → r = other
  left : ∀ session ∈ s.unregistered, ∃ r ∈ s.registered, r.session = session
  apart : ∀ r ∈ s.registered, ∀ other ∈ s.registered, r.session ∉ s.unregistered → other.session ∉ s.unregistered →
    r.raw = other.raw → r = other
  attached : s.Attached

theorem inv_empty : Inv {} where
  once := by simp
  left := by simp
  apart := by simp
  attached := ⟨by simp [Latest], rfl⟩

inductive Effect (s : Registry) : Action → Registry → Prop
  | register {r : Registration} (hnew : ∀ other ∈ s.registered, other.session ≠ r.session)
      (hraw : ∀ other ∈ s.registered, other.session ∉ s.unregistered → other.raw ≠ r.raw) :
      Effect s (.register r) { s with
        coordinator := s.coordinator.register r.userId r.session r.raw
        registered := s.registered ++ [r] }
  | unregister {r : Registration} (hr : r ∈ s.registered) (hin : r.session ∉ s.unregistered) :
      Effect s (.unregister r.session) { s with
        coordinator := s.coordinator.unregister r.userId r.raw
        unregistered := s.unregistered ++ [r.session] }

theorem effect_of_step {s t : Registry} {a : Action} (h : s.step a = some t) : Effect s a t := by
  cases a with
  | register r =>
      simp only [step] at h
      split at h
      next => cases h
      next hno =>
        cases h
        push Not at hno
        exact .register (fun other ho => (hno other ho).1) (fun other ho => (hno other ho).2)
  | unregister session =>
      obtain ⟨r, hr, h⟩ := Option.bind_eq_some_iff.mp h
      have hsession : r.session = session := by simpa using List.find?_some hr
      subst hsession
      split at h
      next => cases h
      next hin =>
        cases h
        exact .unregister (List.mem_of_find?_eq_some hr) hin

theorem Attached.register {s : Registry} (h : s.Attached) {r : Registration} (hnew : r.session ∉ s.unregistered) :
    Attached { s with
      coordinator := s.coordinator.register r.userId r.session r.raw
      registered := s.registered ++ [r] } := by
  refine ⟨?_, rfl⟩
  intro userId session raw
  rw [latest_concat]
  change AList.lookup userId (AList.insert _ _ _) = _ ↔ _
  rw [Table.lookup_insert_eq]
  by_cases hu : userId = r.userId
  · subst hu
    rw [if_pos rfl]
    constructor
    · intro he
      cases he
      exact ⟨Or.inl rfl, hnew⟩
    · rintro ⟨heq | ⟨hne, -⟩, -⟩
      · rw [← heq]
      · exact absurd rfl hne
  · rw [if_neg hu, h.entry]
    constructor
    · rintro ⟨hlatest, hin⟩
      exact ⟨Or.inr ⟨hu, hlatest⟩, hin⟩
    · rintro ⟨heq | ⟨-, hlatest⟩, hin⟩
      · exact absurd (congrArg Registration.userId heq) hu
      · exact ⟨hlatest, hin⟩

theorem Inv.session_iff {s : Registry} (hi : s.Inv) {r : Registration} (hr : r ∈ s.registered)
    (hin : r.session ∉ s.unregistered) {userId : Int} {session raw : Nat}
    (h : s.coordinator.connections.lookup userId = some ⟨session, raw⟩) :
    session = r.session ↔ userId = r.userId ∧ raw = r.raw := by
  obtain ⟨hlatest, hsession⟩ := (hi.attached.entry userId session raw).mp h
  constructor
  · intro he
    have heq := hi.once _ hlatest.mem r hr he
    rw [← heq]
    exact ⟨rfl, rfl⟩
  · rintro ⟨-, he⟩
    exact congrArg Registration.session (hi.apart _ hlatest.mem r hr hsession hin he)

theorem Inv.attached_unregister {s : Registry} (hi : s.Inv) {r : Registration} (hr : r ∈ s.registered)
    (hin : r.session ∉ s.unregistered) :
    Attached { s with
      coordinator := s.coordinator.unregister r.userId r.raw
      unregistered := s.unregistered ++ [r.session] } := by
  refine ⟨?_, RealtimeCoordinator.unregister_active hi.attached.active _ _⟩
  intro userId session raw
  rw [RealtimeCoordinator.lookup_unregister_iff, List.mem_append, List.mem_singleton, not_or, ← and_assoc,
    ← hi.attached.entry]
  exact and_congr_right fun h => not_congr (hi.session_iff hr hin h).symm

theorem Inv.effect {s t : Registry} {a : Action} (hi : s.Inv) (h : Effect s a t) : t.Inv := by
  cases h with
  | @register r hnew hraw =>
      have hin : r.session ∉ s.unregistered := by
        intro hin
        obtain ⟨other, ho, he⟩ := hi.left _ hin
        exact hnew other ho he
      refine ⟨?_, ?_, ?_, hi.attached.register hin⟩
      · intro a ha b hb
        exact inj_concat (p := fun _ => True) (fun a ha b hb _ _ => hi.once a ha b hb) (fun a ha _ => hnew a ha)
          a ha b hb trivial trivial
      · intro session hs
        obtain ⟨other, ho, he⟩ := hi.left session hs
        exact ⟨other, List.mem_append_left _ ho, he⟩
      · exact inj_concat hi.apart hraw
  | @unregister r hr hin =>
      refine ⟨hi.once, ?_, ?_, hi.attached_unregister hr hin⟩
      · intro session hs
        rcases List.mem_append.mp hs with hs | hs
        · exact hi.left session hs
        · exact ⟨r, hr, (List.mem_singleton.mp hs).symm⟩
      · intro a ha b hb hina hinb he
        have hleft : ∀ x : Registration, x.session ∉ s.unregistered ++ [r.session] → x.session ∉ s.unregistered :=
          fun _ hx h => hx (List.mem_append_left _ h)
        exact hi.apart a ha b hb (hleft a hina) (hleft b hinb) he

theorem inv_reachable {s : Registry} (h : machine.Reachable s) : s.Inv :=
  h.induction inv_empty fun _ _ _ _ hi hs => hi.effect (effect_of_step hs)

/-- In every run the coordinator has of each user the connection that was the
last to register, until it unregisters, and counts these. What an older one does
in the end takes no other one away. -/
theorem attached_always {s : Registry} (h : machine.Reachable s) :
    s.Attached ∧ ∀ session t, s.step (.unregister session) = some t → ∀ userId entry,
      s.coordinator.connections.lookup userId = some entry → entry.session ≠ session →
        t.coordinator.connections.lookup userId = some entry := by
  have hi : s.Inv := inv_reachable h
  refine ⟨hi.attached, ?_⟩
  intro session t hs userId entry hentry hne
  cases effect_of_step hs with
  | @unregister r hr hin =>
      refine (RealtimeCoordinator.lookup_unregister_iff _ _ _ _ _).mpr ⟨hentry, ?_⟩
      intro hsame
      exact hne ((hi.session_iff hr hin hentry).mpr hsame)

theorem attached_always_three : ∃ s, machine.run
    [.register ⟨0, 1, 500⟩, .register ⟨1, 1, 600⟩, .unregister 1, .register ⟨2, 1, 600⟩, .unregister 0] = some s ∧
      s.coordinator.connections.lookup 1 = some ⟨2, 600⟩ ∧ s.coordinator.websocketActive = 1 ∧ s.Attached := by
  obtain ⟨s, hs, hr, hentry, hactive⟩ := Machine.exists_of_run (M := machine)
    [.register ⟨0, 1, 500⟩, .register ⟨1, 1, 600⟩, .unregister 1, .register ⟨2, 1, 600⟩, .unregister 0]
    (fun s => s.coordinator.connections.lookup 1 = some ⟨2, 600⟩ ∧ s.coordinator.websocketActive = 1) (by decide)
  exact ⟨s, hs, hentry, hactive, (attached_always hr).1⟩

end Registry

namespace Realtime

variable {cfg : RealtimeConfig}

def standing (link : Link) : Int × Bool × Bool :=
  (link.user.userId, decide (link.stage ≠ .created ∧ link.stage ≠ .issued), decide (link.stage = .destroyed))

structure Still (s t : Realtime) : Prop where
  connections : t.connections = s.connections
  active : t.websocketActive = s.websocketActive
  standings : t.links.map standing = s.links.map standing

theorem map_set_of_eq {α β : Type} {f : α → β} {l : List α} {c : Nat} {a b : α} (hc : l[c]? = some a) (h : f b = f a) :
    (l.set c b).map f = l.map f := by
  rw [List.map_set, h]
  apply List.ext_getElem?
  intro j
  rw [getElem?_set_of_some (a := f a) (by rw [List.getElem?_map, hc]; rfl)]
  split
  next hj => rw [hj, List.getElem?_map, hc]; rfl
  next => rfl

theorem still_of_set {s : Realtime} {c : Nat} {link next : Link} (hc : s.links[c]? = some link)
    (h : standing next = standing link) (sends : List (Nat × WsEnvelope)) :
    Still s { s with links := s.links.set c next, sends := sends } :=
  ⟨rfl, rfl, map_set_of_eq hc h⟩

theorem still_of_lookup (s : Realtime) (userId : Int) (env : WsEnvelope) : Still s (s.lookupAndLock userId env) := by
  rw [lookupAndLock]
  split
  next => exact ⟨rfl, rfl, rfl⟩
  next =>
    split
    next => exact ⟨rfl, rfl, rfl⟩
    next => split <;> exact ⟨rfl, rfl, rfl⟩

theorem standing_enqueueMessage {link next : Link} {env : WsEnvelope} (h : enqueueMessage cfg link env = some next) :
    next.user = link.user ∧ next.stage = link.stage := by
  rw [enqueueMessage] at h
  obtain ⟨connection, -, rfl⟩ := Option.map_eq_some_iff.mp h
  exact ⟨rfl, rfl⟩

inductive Turn (s : Realtime) : Realtime → Prop
  | still {t : Realtime} (h : Still s t) : Turn s t
  | create {t : Realtime} (userId : Int) (hconnections : t.connections = s.connections)
      (hactive : t.websocketActive = s.websocketActive)
      (hstandings : t.links.map standing = s.links.map standing ++ [(userId, false, false)]) : Turn s t
  | register {t : Realtime} {c : Nat} {userId : Int} (hc : (s.links.map standing)[c]? = some (userId, false, false))
      (hconnections : t.connections = s.connections.insert userId c)
      (hactive : t.websocketActive = t.connections.entries.length)
      (hstandings : t.links.map standing = (s.links.map standing).set c (userId, true, false)) : Turn s t
  | unregister {u t : Realtime} {c : Nat} {userId : Int} (hc : (s.links.map standing)[c]? = some (userId, true, false))
      (hu : u.connections = s.connections ∧ u.websocketActive = s.websocketActive)
      (ht : t = u.unregisterUser userId c)
      (hstandings : t.links.map standing = (s.links.map standing).set c (userId, true, true)) : Turn s t

theorem onLink_eq_of_some {s t : Realtime} {c : Nat} {stage : LinkStage} {f : Link → Option Link} {link : Link}
    (hc : s.links[c]? = some link) (h : s.onLink c stage f = some t) :
    ∃ next, link.stage = stage ∧ f link = some next ∧ t = { s with links := s.links.set c next } := by
  obtain ⟨found, next, hfound, hstage, hf, rfl⟩ := onLink_eq h
  rw [hc] at hfound
  cases hfound
  exact ⟨next, hstage, hf, rfl⟩

theorem turn_of_step {s t : Realtime} {a : Action} (h : step cfg s a = some t) : Turn s t := by
  cases a with
  | create user =>
      cases h
      refine .create user.userId rfl rfl ?_
      rw [List.map_append]
      rfl
  | issueToken c token =>
      obtain ⟨link, next, hc, hstage, hf, rfl⟩ := onLink_eq h
      cases hf
      exact .still (still_of_set hc (by simp [standing, hstage]) s.sends)
  | register c =>
      obtain ⟨link, hc, h⟩ := Option.bind_eq_some_iff.mp h
      obtain ⟨u, hu, rfl⟩ := Option.map_eq_some_iff.mp h
      obtain ⟨next, hstage, hf, rfl⟩ := onLink_eq_of_some hc hu
      cases hf
      have hstanding : (s.links.map standing)[c]? = some (link.user.userId, false, false) := by
        rw [List.getElem?_map, hc, Option.map_some, standing, hstage]
        rfl
      refine .register hstanding rfl rfl ?_
      rw [registerUser_links, List.map_set]
      rfl
  | sendAuthState c =>
      obtain ⟨link, next, hc, hstage, hf, rfl⟩ := onLink_eq h
      obtain ⟨sent, hsent, rfl⟩ := Option.map_eq_some_iff.mp hf
      have hsame := standing_enqueueMessage hsent
      exact .still (still_of_set hc (by simp [standing, hstage, hsame.1]) s.sends)
  | reply c env =>
      obtain ⟨link, next, hc, hstage, hf, rfl⟩ := onLink_eq h
      have hsame := standing_enqueueMessage hf
      exact .still (still_of_set hc (by simp [standing, hsame.1, hsame.2]) s.sends)
  | sendEventToUser userId event =>
      cases h
      exact .still (still_of_lookup s _ _)
  | sendErrorToUser userId code message =>
      cases h
      exact .still (still_of_lookup s _ _)
  | enqueue n =>
      obtain ⟨⟨c, env⟩, hn, h⟩ := Option.bind_eq_some_iff.mp h
      obtain ⟨link, hc, h⟩ := Option.bind_eq_some_iff.mp h
      obtain ⟨next, hnext, rfl⟩ := Option.map_eq_some_iff.mp h
      have hsame := standing_enqueueMessage hnext
      exact .still (still_of_set hc (by simp [standing, hsame.1, hsame.2]) _)
  | onWrite c ok =>
      obtain ⟨link, hc, h⟩ := Option.bind_eq_some_iff.mp h
      obtain ⟨connection, hw, rfl⟩ := Option.map_eq_some_iff.mp h
      exact .still (still_of_set hc (by rfl) s.sends)
  | release c =>
      simp only [step] at h
      split at h
      next => cases h
      next =>
        obtain ⟨link, next, hc, hstage, hf, rfl⟩ := onLink_eq h
        cases hf
        exact .still (still_of_set hc (by simp [standing, hstage]) s.sends)
  | unregister c =>
      obtain ⟨link, hc, h⟩ := Option.bind_eq_some_iff.mp h
      obtain ⟨u, hu, rfl⟩ := Option.map_eq_some_iff.mp h
      obtain ⟨next, hstage, hf, rfl⟩ := onLink_eq_of_some hc hu
      cases hf
      have hstanding : (s.links.map standing)[c]? = some (link.user.userId, true, false) := by
        rw [List.getElem?_map, hc, Option.map_some, standing, hstage]
        rfl
      refine .unregister (u := { s with links := s.links.set c { link with stage := .destroyed } }) hstanding
        ⟨rfl, rfl⟩ rfl ?_
      rw [unregisterUser_links, List.map_set]
      rfl

/-- The coordinator of the links, in which the index of a link stands for its
address too. -/
structure Mirrors (s : Realtime) (k : RealtimeCoordinator) : Prop where
  keys : k.connections.keys = s.connections.keys
  entry : ∀ userId, k.connections.lookup userId = (s.connections.lookup userId).map fun c => ⟨c, c⟩
  active : k.websocketActive = s.websocketActive

theorem Mirrors.of_eq {s t : Realtime} {k : RealtimeCoordinator} (h : Mirrors s k)
    (hconnections : t.connections = s.connections) (hactive : t.websocketActive = s.websocketActive) :
    Mirrors t k := by
  refine ⟨?_, ?_, ?_⟩
  · rw [hconnections, h.keys]
  · rw [hconnections]
    exact h.entry
  · rw [hactive, h.active]

theorem length_entries {κ ν : Type} (table : Table κ ν) : table.entries.length = table.keys.length :=
  (List.length_map _).symm

theorem Mirrors.register {s t : Realtime} {k : RealtimeCoordinator} (h : Mirrors s k) {userId : Int} {c : Nat}
    (hconnections : t.connections = s.connections.insert userId c)
    (hactive : t.websocketActive = t.connections.entries.length) : Mirrors t (k.register userId c c) := by
  have hkeys : (k.register userId c c).connections.keys = t.connections.keys := by
    rw [hconnections]
    change (AList.insert _ _ _).keys = (AList.insert _ _ _).keys
    rw [AList.keys_insert, AList.keys_insert, h.keys]
  refine ⟨hkeys, ?_, ?_⟩
  · intro u
    rw [hconnections, Table.lookup_insert_eq]
    refine (Table.lookup_insert_eq _ _ _ _).trans ?_
    split
    next => rfl
    next => exact h.entry u
  · rw [hactive, length_entries, ← hkeys, ← length_entries]
    rfl

theorem Mirrors.unregister {s : Realtime} {k : RealtimeCoordinator} (h : Mirrors s k) (userId : Int) (c : Nat) :
    Mirrors (s.unregisterUser userId c) (k.unregister userId c) := by
  rw [unregisterUser, RealtimeCoordinator.unregister]
  cases hl : s.connections.lookup userId with
  | none =>
      rw [h.entry, hl, Option.map_none]
      exact h
  | some raw =>
      rw [h.entry, hl, Option.map_some]
      dsimp only
      split
      next =>
        have hkeys : (k.connections.erase userId).keys = (s.connections.erase userId).keys := by
          rw [AList.keys_erase, AList.keys_erase, h.keys]
        refine ⟨hkeys, ?_, ?_⟩
        · intro u
          dsimp only
          rw [Table.lookup_erase_eq, Table.lookup_erase_eq]
          split
          next => rfl
          next => exact h.entry u
        · change (k.connections.erase userId).entries.length = (s.connections.erase userId).entries.length
          rw [length_entries, length_entries, hkeys]
      next => exact h

structure Follows (s : Realtime) (r : Registry) : Prop where
  coordinator : Mirrors s r.coordinator
  raw : ∀ x ∈ r.registered, x.raw = x.session
  registered : ∀ c userId, ⟨c, userId, c⟩ ∈ r.registered ↔
    ∃ gone, (s.links.map standing)[c]? = some (userId, true, gone)
  unregistered : ∀ c, c ∈ r.unregistered ↔ ∃ userId, (s.links.map standing)[c]? = some (userId, true, true)

theorem Follows.standing_of_mem {s : Realtime} {r : Registry} (h : Follows s r) {x : Registration}
    (hx : x ∈ r.registered) : ∃ gone, (s.links.map standing)[x.session]? = some (x.userId, true, gone) := by
  apply (h.registered x.session x.userId).mp
  have hraw := h.raw x hx
  obtain ⟨session, userId, raw⟩ := x
  cases hraw
  exact hx

theorem Follows.still {s t : Realtime} {r : Registry} (h : Follows s r) (ht : Still s t) : Follows t r where
  coordinator := h.coordinator.of_eq ht.connections ht.active
  raw := h.raw
  registered := by
    rw [ht.standings]
    exact h.registered
  unregistered := by
    rw [ht.standings]
    exact h.unregistered

theorem Follows.create {s t : Realtime} {r : Registry} (h : Follows s r) {userId : Int}
    (hconnections : t.connections = s.connections) (hactive : t.websocketActive = s.websocketActive)
    (hstandings : t.links.map standing = s.links.map standing ++ [(userId, false, false)]) : Follows t r := by
  have hsame : ∀ (c : Nat) (u : Int) (gone : Bool), (t.links.map standing)[c]? = some (u, true, gone) ↔
      (s.links.map standing)[c]? = some (u, true, gone) := by
    intro c u gone
    rw [hstandings, getElem?_concat_eq]
    split
    next hc =>
      rw [hc, List.getElem?_eq_none (Nat.le_refl _)]
      simp
    next => rfl
  refine ⟨h.coordinator.of_eq hconnections hactive, h.raw, ?_, ?_⟩
  · simp only [hsame]
    exact h.registered
  · simp only [hsame]
    exact h.unregistered

theorem Follows.register {s t : Realtime} {r : Registry} (h : Follows s r) {c : Nat} {userId : Int}
    (hc : (s.links.map standing)[c]? = some (userId, false, false))
    (hconnections : t.connections = s.connections.insert userId c)
    (hactive : t.websocketActive = t.connections.entries.length)
    (hstandings : t.links.map standing = (s.links.map standing).set c (userId, true, false)) :
    ∃ q, Registry.machine.Leads r q ∧ Follows t q := by
  have hnew : ∀ x ∈ r.registered, x.session ≠ c := by
    rintro x hx rfl
    obtain ⟨gone, hgone⟩ := h.standing_of_mem hx
    rw [hc] at hgone
    cases hgone
  have hstep : Registry.machine.step r (.register ⟨c, userId, c⟩) = some {
      coordinator := r.coordinator.register userId c c
      registered := r.registered ++ [⟨c, userId, c⟩]
      unregistered := r.unregistered } := by
    refine if_neg ?_
    rintro ⟨x, hx, he | ⟨-, he⟩⟩
    · exact hnew x hx he
    · exact hnew x hx ((h.raw x hx).symm.trans he)
  refine ⟨_, .of_step hstep, h.coordinator.register hconnections hactive, ?_, ?_, ?_⟩
  · intro x hx
    rcases List.mem_append.mp hx with hx | hx
    · exact h.raw x hx
    · rw [List.mem_singleton.mp hx]
  · intro d u
    rw [hstandings, getElem?_set_of_some hc, List.mem_append, List.mem_singleton, h.registered]
    by_cases hd : d = c
    · subst hd
      simp [hc, eq_comm]
    · simp [hd]
  · intro d
    rw [hstandings, getElem?_set_of_some hc, h.unregistered]
    by_cases hd : d = c
    · subst hd
      simp [hc]
    · simp [hd]

theorem Follows.unregister {s u t : Realtime} {r : Registry} (h : Follows s r) {c : Nat} {userId : Int}
    (hc : (s.links.map standing)[c]? = some (userId, true, false))
    (hu : u.connections = s.connections ∧ u.websocketActive = s.websocketActive)
    (ht : t = u.unregisterUser userId c)
    (hstandings : t.links.map standing = (s.links.map standing).set c (userId, true, true)) :
    ∃ q, Registry.machine.Leads r q ∧ Follows t q := by
  have hmem : ⟨c, userId, c⟩ ∈ r.registered := (h.registered c userId).mpr ⟨false, hc⟩
  have hin : c ∉ r.unregistered := by
    intro hin
    obtain ⟨v, hv⟩ := (h.unregistered c).mp hin
    rw [hc] at hv
    cases hv
  obtain ⟨x, hx⟩ := Option.isSome_iff_exists.mp
    (List.find?_isSome.mpr ⟨_, hmem, decide_eq_true rfl⟩ : (r.registered.find? (·.session = c)).isSome = true)
  have hxmem := List.mem_of_find?_eq_some hx
  have hxc : x.session = c := by simpa using List.find?_some hx
  have hxu : x.userId = userId := by
    obtain ⟨gone, hgone⟩ := h.standing_of_mem hxmem
    rw [hxc, hc] at hgone
    cases hgone
    rfl
  have hstep : Registry.machine.step r (.unregister c) = some {
      coordinator := r.coordinator.unregister userId c
      registered := r.registered
      unregistered := r.unregistered ++ [c] } := by
    change Registry.step r (.unregister c) = _
    rw [Registry.step, hx, Option.bind_some, if_neg hin, hxu, h.raw x hxmem, hxc]
  have hmirrors : Mirrors u r.coordinator := h.coordinator.of_eq hu.1 hu.2
  refine ⟨_, .of_step hstep, ht ▸ hmirrors.unregister userId c, h.raw, ?_, ?_⟩
  · intro d v
    rw [hstandings, getElem?_set_of_some hc, h.registered]
    by_cases hd : d = c
    · subst hd
      simp [hc]
    · simp [hd]
  · intro d
    rw [hstandings, getElem?_set_of_some hc, List.mem_append, List.mem_singleton, h.unregistered]
    by_cases hd : d = c
    · subst hd
      simp
    · simp [hd]

theorem follows_turn {s t : Realtime} {r : Registry} (h : Follows s r) (ht : Turn s t) :
    ∃ q, Registry.machine.Leads r q ∧ Follows t q := by
  cases ht with
  | still ht => exact ⟨r, .refl r, h.still ht⟩
  | create userId hconnections hactive hstandings => exact ⟨r, .refl r, h.create hconnections hactive hstandings⟩
  | register hc hconnections hactive hstandings => exact h.register hc hconnections hactive hstandings
  | unregister hc hu ht hstandings => exact h.unregister hc hu ht hstandings

/-- Every run of the links is, on the coordinator, a run of Register and
Unregister. -/
theorem follows_reachable {s : Realtime} (h : (machine cfg).Reachable s) :
    ∃ r, Registry.machine.Reachable r ∧ Follows s r := by
  refine h.simulated (R := Follows) ?_ ?_
  · exact ⟨⟨rfl, fun _ => rfl, rfl⟩, by simp [Registry.machine], by simp [machine, Registry.machine],
      by simp [machine, Registry.machine]⟩
  · intro s a t r _ hrel hs
    exact follows_turn hrel (turn_of_step hs)

/-- The coordinator has of each user the link that was the last to register,
until it unregisters. -/
theorem connections_reachable {s : Realtime} (h : (machine cfg).Reachable s) : ∃ r, Follows s r ∧
    (∀ userId c, s.connections.lookup userId = some c ↔
      Registry.Latest r.registered ⟨c, userId, c⟩ ∧ c ∉ r.unregistered) ∧
    s.websocketActive = s.connections.entries.length := by
  obtain ⟨r, hr, hf⟩ := follows_reachable h
  have hattached := (Registry.inv_reachable hr).attached
  refine ⟨r, hf, ?_, ?_⟩
  · intro userId c
    rw [← hattached.entry, hf.coordinator.entry]
    simp
  · rw [← hf.coordinator.active, hattached.active, length_entries, hf.coordinator.keys, ← length_entries]

end Realtime

end GameServer
