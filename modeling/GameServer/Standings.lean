import GameServer.Results
import Mathlib.Logic.Function.Basic

namespace GameServer

/-- What is counted of a user; it does not tell a user without an entry from a
new one. -/
structure Standing where
  rating : Int := RatingService.initialRating
  wins : Int := 0
  losses : Int := 0
deriving DecidableEq, Repr

def RatingEntry.standing (e : RatingEntry) : Standing := ⟨e.rating, e.wins, e.losses⟩

namespace RatingService

def standing (entries : RatingService) (u : Int) : Standing := ((entries.lookup u).map (·.standing)).getD {}

def outcome {D : Type} (elo : Elo D) (st : Int → Standing) (winnerId loserId : Int) : Int → Standing :=
  let winner := st winnerId
  let loser := st loserId
  let st := Function.update st winnerId { winner with
    rating := elo.applyElo winner.rating (elo.expectedScore winner.rating loser.rating) elo.one }
  let st := Function.update st loserId { st loserId with
    rating := elo.applyElo (st loserId).rating (elo.expectedScore loser.rating winner.rating) elo.zero }
  let st := Function.update st winnerId { st winnerId with wins := (st winnerId).wins + 1 }
  Function.update st loserId { st loserId with losses := (st loserId).losses + 1 }

theorem standing_of_lookup {entries : RatingService} {u : Int} {e : RatingEntry} (h : entries.lookup u = some e) :
    entries.standing u = e.standing := by
  rw [standing, h]
  rfl

theorem standing_insert (entries : RatingService) (u : Int) (e : RatingEntry) :
    RatingService.standing (entries.insert u e) = Function.update entries.standing u e.standing := by
  funext v
  rw [standing, Table.lookup_insert_eq, Function.update_apply]
  split <;> rfl

theorem standing_ensureUser (entries : RatingService) (u : Int) (name : String) :
    (entries.ensureUser u name).standing = entries.standing := by
  rw [ensureUser]
  split
  next hl =>
    rw [standing_insert, Function.update_eq_self_iff, standing, hl]
    rfl
  next e hl =>
    split
    next =>
      rw [standing_insert, Function.update_eq_self_iff, standing_of_lookup hl]
      rfl
    next => rfl

theorem standing_ensure (entries : RatingService) (u : Int) : (entries.ensure u).standing = entries.standing := by
  rw [ensure]
  split
  next => rfl
  next hout =>
    rw [standing_insert, Function.update_eq_self_iff, standing, AList.lookup_eq_none.mpr hout]
    rfl

theorem standing_modify {entries : RatingService} {u : Int} (hu : u ∈ entries) {f : RatingEntry → RatingEntry}
    {g : Standing → Standing} (hg : ∀ e, (f e).standing = g e.standing) :
    RatingService.standing (Table.modify entries u f) =
      Function.update entries.standing u (g (entries.standing u)) := by
  obtain ⟨e, he⟩ := (Table.mem_iff_lookup entries u).mp hu
  rw [Table.modify, he, standing_of_lookup he, ← hg]
  exact standing_insert entries u (f e)

theorem rating_eq {entries : RatingService} {u : Int} (hu : u ∈ entries) :
    (entries.index u).rating = (entries.standing u).rating := by
  obtain ⟨e, he⟩ := (Table.mem_iff_lookup entries u).mp hu
  rw [Table.index_eq_of_lookup he, standing_of_lookup he]
  rfl

theorem standing_setRating {entries : RatingService} {u : Int} (hu : u ∈ entries) (r : Int) :
    (entries.setRating u r).standing =
      Function.update entries.standing u { entries.standing u with rating := r } :=
  standing_modify (g := fun x => { x with rating := r }) hu (fun _ => rfl)

theorem standing_addWin {entries : RatingService} {u : Int} (hu : u ∈ entries) :
    (entries.addWin u).standing =
      Function.update entries.standing u { entries.standing u with wins := (entries.standing u).wins + 1 } :=
  standing_modify (g := fun x => { x with wins := x.wins + 1 }) hu (fun _ => rfl)

theorem standing_addLoss {entries : RatingService} {u : Int} (hu : u ∈ entries) :
    (entries.addLoss u).standing =
      Function.update entries.standing u { entries.standing u with losses := (entries.standing u).losses + 1 } :=
  standing_modify (g := fun x => { x with losses := x.losses + 1 }) hu (fun _ => rfl)

theorem standing_applyMatchResult {D : Type} (elo : Elo D) (entries : RatingService) (w l : Int) :
    (entries.applyMatchResult elo w l).1.standing = outcome elo entries.standing w l := by
  have hw : w ∈ (entries.ensure w).ensure l := by simp [mem_ensure]
  have hl : l ∈ (entries.ensure w).ensure l := by simp [mem_ensure]
  have hsame : ((entries.ensure w).ensure l).standing = entries.standing := by
    rw [standing_ensure, standing_ensure]
  simp only [applyMatchResult]
  rw [rating_eq hw, rating_eq hl, hsame, rating_eq (u := l) (by simpa using hl), standing_addLoss (by simpa using hl),
    standing_addWin (by simpa using hw), standing_setRating (u := l) (by simpa using hl), standing_setRating hw, hsame]
  rfl

theorem mem_ensureUser (entries : RatingService) (u : Int) (name : String) (v : Int) :
    v ∈ entries.ensureUser u name ↔ v = u ∨ v ∈ entries := by
  rw [ensureUser]
  split
  next => exact AList.mem_insert _
  next e hl =>
    have hu : u ∈ entries := (Table.mem_iff_lookup entries u).mpr ⟨e, hl⟩
    split
    next => exact AList.mem_insert _
    next =>
      refine ⟨Or.inr, ?_⟩
      rintro (rfl | hv)
      · exact hu
      · exact hv

theorem mem_applyMatchResult {D : Type} (elo : Elo D) (entries : RatingService) (w l v : Int) :
    v ∈ (entries.applyMatchResult elo w l).1 ↔ v = w ∨ v = l ∨ v ∈ entries := by
  simp only [applyMatchResult, addLoss, Table.mem_modify, mem_addWin, mem_setRating, mem_ensure]
  tauto

end RatingService

end GameServer
