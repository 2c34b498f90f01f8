import GameServer.Simulation

namespace GameServer

structure SessionParticipant where
  userId : Int
  username : String
deriving DecidableEq, Repr

structure RatingEntry where
  username : String := ""
  rating : Int := 0
  wins : Int := 0
  losses : Int := 0
deriving DecidableEq, Repr

instance : Inhabited RatingEntry := ⟨{}⟩

structure RatingSummary where
  userId : Int
  username : String
  rating : Int
  wins : Int
  losses : Int
deriving DecidableEq, Repr

/-- The two private computations of the rating service. Their floating point
arithmetic is left open: D stands for double. -/
structure Elo (D : Type) where
  expectedScore : Int → Int → D
  applyElo : Int → D → D → Int
  one : D
  zero : D

def Elo.even : Elo Int where
  expectedScore := fun _ _ => 50
  applyElo := fun rating expected score => rating + 32 * (score - expected) / 100
  one := 100
  zero := 0

abbrev RatingService := Table Int RatingEntry

namespace RatingService

def initialRating : Int := 1000

def ensureUser (entries : RatingService) (userId : Int) (username : String) : RatingService :=
  match entries.lookup userId with
  | none => entries.insert userId { username := username, rating := initialRating, wins := 0, losses := 0 }
  | some entry => if username ≠ "" then entries.insert userId { entry with username := username } else entries

def ensure (entries : RatingService) (userId : Int) : RatingService :=
  if userId ∈ entries then entries
  else entries.insert userId { username := "", rating := initialRating, wins := 0, losses := 0 }

def setRating (entries : RatingService) (userId rating : Int) : RatingService :=
  entries.modify userId (fun e => { e with rating := rating })

def addWin (entries : RatingService) (userId : Int) : RatingService :=
  entries.modify userId (fun e => { e with wins := e.wins + 1 })

def addLoss (entries : RatingService) (userId : Int) : RatingService :=
  entries.modify userId (fun e => { e with losses := e.losses + 1 })

/-- Winner and loser are references into one table, so each assignment reads
what the ones before it have stored, also when the two ids are equal. -/
def applyMatchResult {D : Type} (elo : Elo D) (entries : RatingService) (winnerId loserId : Int) :
    RatingService × RatingSummary :=
  let entries := (entries.ensure winnerId).ensure loserId
  let winner := entries.index winnerId
  let loser := entries.index loserId
  let expectedWinner := elo.expectedScore winner.rating loser.rating
  let expectedLoser := elo.expectedScore loser.rating winner.rating
  let entries := entries.setRating winnerId (elo.applyElo winner.rating expectedWinner elo.one)
  let entries := entries.setRating loserId
    (elo.applyElo (entries.index loserId).rating expectedLoser elo.zero)
  let entries := (entries.addWin winnerId).addLoss loserId
  let winner := entries.index winnerId
  (entries, ⟨winnerId, winner.username, winner.rating, winner.wins, winner.losses⟩)

def wins (entries : RatingService) (userId : Int) : Int := (entries.index userId).wins

def losses (entries : RatingService) (userId : Int) : Int := (entries.index userId).losses

theorem index_ensureUser (entries : RatingService) (u : Int) (name : String) (v : Int) :
    ((entries.ensureUser u name).index v).wins = (entries.index v).wins ∧
      ((entries.ensureUser u name).index v).losses = (entries.index v).losses := by
  rw [ensureUser]
  cases h : entries.lookup u with
  | none =>
      by_cases hv : v = u
      · subst hv
        simp only [Table.index, AList.lookup_insert, Option.getD_some, h, Option.getD_none]
        exact ⟨rfl, rfl⟩
      · simp [Table.index_insert, hv]
  | some e =>
      by_cases hn : name = ""
      · simp [hn]
      · by_cases hv : v = u
        · subst hv
          simp [hn, Table.index, h]
        · simp [hn, Table.index_insert, hv]

@[simp] theorem wins_ensureUser (entries : RatingService) (u : Int) (name : String) (v : Int) :
    (entries.ensureUser u name).wins v = entries.wins v :=
  (index_ensureUser entries u name v).1

@[simp] theorem losses_ensureUser (entries : RatingService) (u : Int) (name : String) (v : Int) :
    (entries.ensureUser u name).losses v = entries.losses v :=
  (index_ensureUser entries u name v).2

theorem mem_ensure (entries : RatingService) (u v : Int) :
    v ∈ entries.ensure u ↔ v = u ∨ v ∈ entries := by
  rw [ensure]
  split
  next h => exact ⟨Or.inr, fun hv => hv.elim (fun he => he ▸ h) id⟩
  next => exact AList.mem_insert _

theorem index_ensure (entries : RatingService) (u v : Int) :
    (entries.ensure u).wins v = entries.wins v ∧ (entries.ensure u).losses v = entries.losses v := by
  simp only [ensure, wins, losses]
  split
  next => exact ⟨rfl, rfl⟩
  next h =>
    constructor
    · exact Table.apply_index_insert h RatingEntry.wins (by rfl) v
    · exact Table.apply_index_insert h RatingEntry.losses (by rfl) v

theorem index_modify {entries : RatingService} {u : Int} (hu : u ∈ entries) (f : RatingEntry → RatingEntry)
    (v : Int) : Table.index (Table.modify entries u f) v =
      if v = u then f (entries.index v) else entries.index v := by
  obtain ⟨e, he⟩ := (Table.mem_iff_lookup entries u).mp hu
  rw [Table.index, Table.lookup_modify]
  split
  next hv => subst hv; simp [Table.index, he]
  next => rfl

@[simp] theorem mem_setRating (entries : RatingService) (u r v : Int) :
    v ∈ entries.setRating u r ↔ v ∈ entries :=
  Table.mem_modify _ _ _ _

@[simp] theorem mem_addWin (entries : RatingService) (u v : Int) : v ∈ entries.addWin u ↔ v ∈ entries :=
  Table.mem_modify _ _ _ _

theorem setRating_counts {entries : RatingService} {u : Int} (hu : u ∈ entries) (r v : Int) :
    (entries.setRating u r).wins v = entries.wins v ∧ (entries.setRating u r).losses v = entries.losses v := by
  simp only [wins, losses, setRating, index_modify hu]
  split <;> exact ⟨rfl, rfl⟩

theorem addWin_counts {entries : RatingService} {u : Int} (hu : u ∈ entries) (v : Int) :
    (entries.addWin u).wins v = entries.wins v + (if v = u then 1 else 0) ∧
      (entries.addWin u).losses v = entries.losses v := by
  simp only [wins, losses, addWin, index_modify hu]
  split <;> simp

theorem addLoss_counts {entries : RatingService} {u : Int} (hu : u ∈ entries) (v : Int) :
    (entries.addLoss u).wins v = entries.wins v ∧
      (entries.addLoss u).losses v = entries.losses v + (if v = u then 1 else 0) := by
  simp only [wins, losses, addLoss, index_modify hu]
  split <;> simp

theorem applyMatchResult_counts {D : Type} (elo : Elo D) (entries : RatingService) (w l v : Int) :
    (entries.applyMatchResult elo w l).1.wins v = entries.wins v + (if v = w then 1 else 0) ∧
      (entries.applyMatchResult elo w l).1.losses v = entries.losses v + (if v = l then 1 else 0) := by
  have hw : w ∈ (entries.ensure w).ensure l := by simp [mem_ensure]
  have hl : l ∈ (entries.ensure w).ensure l := by simp [mem_ensure]
  have hens := index_ensure (entries.ensure w) l v
  have hens' := index_ensure entries w v
  simp only [applyMatchResult]
  rw [(addLoss_counts (by simpa using hl) v).1, (addLoss_counts (by simpa using hl) v).2,
    (addWin_counts (by simpa using hw) v).1, (addWin_counts (by simpa using hw) v).2,
    (setRating_counts (by simpa using hl) _ v).1, (setRating_counts (by simpa using hl) _ v).2,
    (setRating_counts hw _ v).1, (setRating_counts hw _ v).2, hens.1, hens.2, hens'.1, hens'.2]
  exact ⟨rfl, rfl⟩

theorem total_ensureUser {f : RatingEntry → Int} (hnew : ∀ name, f ⟨name, initialRating, 0, 0⟩ = 0)
    (hname : ∀ e name, f { e with username := name } = f e) (entries : RatingService) (u : Int) (name : String) :
    Table.total f (entries.ensureUser u name) = Table.total f entries := by
  rw [ensureUser]
  cases h : entries.lookup u with
  | none => simp [Table.total_insert, h, hnew]
  | some e =>
      by_cases hn : name = ""
      · simp [hn]
      · simp [hn, Table.total_insert, h, hname]

theorem total_ensure {f : RatingEntry → Int} (hnew : ∀ name, f ⟨name, initialRating, 0, 0⟩ = 0)
    (entries : RatingService) (u : Int) : Table.total f (entries.ensure u) = Table.total f entries := by
  rw [ensure]
  split
  next => rfl
  next h => simp [Table.total_insert_new f h, hnew]

theorem applyMatchResult_total {D : Type} (elo : Elo D) (entries : RatingService) (w l : Int) :
    Table.total (·.wins) (entries.applyMatchResult elo w l).1 = Table.total (·.wins) entries + 1 ∧
      Table.total (·.losses) (entries.applyMatchResult elo w l).1 = Table.total (·.losses) entries + 1 := by
  have hw : w ∈ (entries.ensure w).ensure l := by simp [mem_ensure]
  have hl : l ∈ (entries.ensure w).ensure l := by simp [mem_ensure]
  simp only [applyMatchResult, addWin, addLoss, setRating]
  constructor
  · rw [Table.total_modify _ 0 (by simpa [Table.mem_modify] using hl) (by simp),
      Table.total_modify _ 1 (by simpa [Table.mem_modify] using hw) (by simp),
      Table.total_modify _ 0 (by simpa [Table.mem_modify] using hl) (by simp),
      Table.total_modify _ 0 hw (by simp), total_ensure (by simp), total_ensure (by simp)]
    omega
  · rw [Table.total_modify _ 1 (by simpa [Table.mem_modify] using hl) (by simp),
      Table.total_modify _ 0 (by simpa [Table.mem_modify] using hw) (by simp),
      Table.total_modify _ 0 (by simpa [Table.mem_modify] using hl) (by simp),
      Table.total_modify _ 0 hw (by simp), total_ensure (by simp), total_ensure (by simp)]
    omega

end RatingService

structure MatchResultRecord where
  sessionId : String
  user1Id : Int
  user2Id : Int
  winnerUserId : Int
  tickCount : Int
  endedAt : Int
  snapshot : Snapshot
deriving DecidableEq, Repr

def MatchResultRecord.loserId (record : MatchResultRecord) : Int :=
  if record.winnerUserId = record.user1Id then record.user2Id else record.user1Id

abbrev ResultRepository := Table String MatchResultRecord

namespace ResultRepository

def saveIfAbsent (records : ResultRepository) (record : MatchResultRecord) : ResultRepository × Bool :=
  if record.sessionId ∈ records then (records, false)
  else (records.insert record.sessionId record, true)

theorem saveIfAbsent_old {records : ResultRepository} {record : MatchResultRecord}
    (h : record.sessionId ∈ records) : records.saveIfAbsent record = (records, false) :=
  if_pos h

theorem saveIfAbsent_new {records : ResultRepository} {record : MatchResultRecord}
    (h : record.sessionId ∉ records) :
    records.saveIfAbsent record = (records.insert record.sessionId record, true) :=
  if_neg h

end ResultRepository

def usersToEnsure (record : MatchResultRecord) (participants : List SessionParticipant) :
    List (Int × String) :=
  participants.map (fun p => (p.userId, p.username)) ++ [(record.user1Id, ""), (record.user2Id, "")]

/-- ResultService::FinalizeResult without interruption. -/
def finalizeResult {D : Type} (elo : Elo D) (records : ResultRepository) (entries : RatingService)
    (record : MatchResultRecord) (participants : List SessionParticipant) :
    ResultRepository × RatingService × Bool :=
  let (records, saved) := records.saveIfAbsent record
  if saved then
    let entries := (usersToEnsure record participants).foldl (fun es p => es.ensureUser p.1 p.2) entries
    (records, (entries.applyMatchResult elo record.winnerUserId record.loserId).1, true)
  else (records, entries, false)

end GameServer
