import GameServer.Responses

namespace GameServer

open Program Numeral

def Denotes (max n : UInt64) (text : Bytes) : Prop :=
  text ≠ [] ∧ (∀ b ∈ text, isDigit 10 b = true) ∧ value 10 text = n.toNat ∧ 1 ≤ n ∧ n ≤ max

/-- Blanks or a sign stand before the digits, and the number comes out in the
range. -/
def Slips (max n : UInt64) (text : Bytes) : Prop :=
  ∃ blanks sign digits, Spells text blanks sign digits ∧ (blanks ≠ [] ∨ sign ≠ none) ∧ value 10 digits < 2 ^ 64 ∧
    n = UInt64.ofNat (negateIf sign 64 (value 10 digits)) ∧ 1 ≤ n ∧ n ≤ max

theorem parsePositiveInt_in_range_iff (max n : UInt64) (text : Bytes) :
    (parsePositiveInt text = some n ∧ 1 ≤ n ∧ n ≤ max) ↔ Denotes max n text ∨ Slips max n text := by
  rw [parsePositiveInt_eq_some_iff]
  constructor
  · rintro ⟨⟨blanks, sign, digits, hspells, hvalue, hn⟩, hlow, hhigh⟩
    by_cases hplain : blanks = [] ∧ sign = none
    · obtain ⟨rfl, rfl⟩ := hplain
      have htext : text = digits := hspells.text_eq
      subst htext
      refine Or.inl ⟨hspells.nonempty, hspells.digits, ?_, hlow, hhigh⟩
      rw [hn]
      exact (UInt64.toNat_ofNat_of_lt' hvalue).symm
    · rw [not_and_or] at hplain
      exact Or.inr ⟨blanks, sign, digits, hspells, hplain, hvalue, hn, hlow, hhigh⟩
  · rintro (⟨hnonempty, hdigits, hvalue, hlow, hhigh⟩ | ⟨blanks, sign, digits, hspells, -, hvalue, hn, hlow, hhigh⟩)
    · refine ⟨⟨[], none, text, ⟨rfl, by simp, by simp, hnonempty, hdigits⟩, ?_, ?_⟩, hlow, hhigh⟩
      · rw [hvalue]
        exact n.toNat_lt
      · rw [hvalue]
        exact UInt64.ofNat_toNat.symm
    · exact ⟨⟨blanks, sign, digits, hspells, hvalue, hn⟩, hlow, hhigh⟩

def Given (dflt max n : UInt64) (given : Option Bytes) : Prop := given.elim (n = dflt) (Denotes max n)

theorem Given.unique {dflt max n m : UInt64} {given : Option Bytes} (hn : Given dflt max n given)
    (hm : Given dflt max m given) : n = m := by
  cases given with
  | none => exact hn.trans hm.symm
  | some text => exact UInt64.toNat_inj.mp (hn.2.2.1.symm.trans hm.2.2.1)

def Taken (dflt max n : UInt64) (given : Option Bytes) : Prop :=
  given.elim (n = dflt) fun text => Denotes max n text ∨ Slips max n text

theorem Given.taken {dflt max n : UInt64} {given : Option Bytes} (h : Given dflt max n given) :
    Taken dflt max n given := by
  cases given with
  | none => exact h
  | some text => exact Or.inl h

theorem parseOrFlag_eq_iff (params : Table Bytes Bytes) (key : Bytes) (dest max n : UInt64) (invalid : Bool) :
    parseOrFlag params key dest 1 max invalid = (n, false) ↔
      invalid = false ∧ Taken dest max n (params.lookup key) := by
  rw [parseOrFlag, Taken]
  cases params.lookup key with
  | none => simp [and_comm, eq_comm]
  | some text =>
      simp only [Option.elim_some, ← parsePositiveInt_in_range_iff]
      cases parsePositiveInt text with
      | none => simp
      | some parsed =>
          simp only
          split
          next hout =>
            constructor
            · intro h
              simp at h
            · rintro ⟨-, hn, hlow, hhigh⟩
              cases hn
              rcases hout with h | h
              · exact absurd h (UInt64.not_lt.mpr hlow)
              · exact absurd h (UInt64.not_lt.mpr hhigh)
          next hin =>
            obtain ⟨hlow, hhigh⟩ := not_or.mp hin
            constructor
            · intro h
              cases h
              exact ⟨rfl, rfl, UInt64.not_lt.mp hlow, UInt64.not_lt.mp hhigh⟩
            · rintro ⟨hinvalid, hn, -⟩
              cases hn
              rw [hinvalid]

def pageOf : HttpCall → Option (UInt64 × UInt64)
  | .getLeaderboard page size => some (page, size)
  | _ => none

def leaderboardRange : Error := ⟨"leaderboard_range", "page 또는 size 값이 허용 범위를 벗어났습니다"⟩

namespace HttpSession

variable {parse : Bytes → Option Json} {s : HttpSession} {query : Bytes}

theorem pageOf_sending (call : HttpCall) (h : call.Sending) : pageOf call = none := by
  cases call with
  | getLeaderboard => exact h.elim
  | _ => rfl

def Asks (query : Bytes) (page size : UInt64) : Prop :=
  Given 1 18446744073709551615 page ((parseQueryParams query).lookup (bytes "page")) ∧
    Given 10 50 size ((parseQueryParams query).lookup (bytes "size"))

def Admits (query : Bytes) (page size : UInt64) : Prop :=
  Taken 1 18446744073709551615 page ((parseQueryParams query).lookup (bytes "page")) ∧
    Taken 10 50 size ((parseQueryParams query).lookup (bytes "size"))

theorem Asks.admits {page size : UInt64} (h : Asks query page size) : Admits query page size :=
  ⟨h.1.taken, h.2.taken⟩

theorem leaderboard_of_admits {page size : UInt64} (h : Admits query page size) :
    s.leaderboard query = (ask (.getLeaderboard page size) >>= fun pageData =>
      s.succeed 200 (leaderboardJson page size pageData)) := by
  have hpage := (parseOrFlag_eq_iff _ (bytes "page") 1 18446744073709551615 page false).mpr ⟨rfl, h.1⟩
  have hsize := (parseOrFlag_eq_iff _ (bytes "size") 10 50 size false).mpr ⟨rfl, h.2⟩
  have hmax : (-1 : UInt64) = 18446744073709551615 := rfl
  rw [leaderboard, hmax, hpage]
  dsimp only
  rw [hsize]
  exact if_neg (by simp)

theorem leaderboard_of_not (h : ¬ ∃ page size, Admits query page size) :
    s.leaderboard query = s.fail 400 leaderboardRange := by
  have hmax : (-1 : UInt64) = 18446744073709551615 := rfl
  rw [leaderboard, hmax]
  cases hpage : parseOrFlag (parseQueryParams query) (bytes "page") 1 1 18446744073709551615 false with
  | mk page invalid =>
      dsimp only
      cases hsize : parseOrFlag (parseQueryParams query) (bytes "size") 10 1 50 invalid with
      | mk size flagged =>
          cases flagged with
          | true => exact if_pos rfl
          | false =>
              obtain ⟨hinvalid, hz⟩ := (parseOrFlag_eq_iff _ _ _ _ _ _).mp hsize
              rw [hinvalid] at hpage
              exact absurd ⟨page, size, ((parseOrFlag_eq_iff _ _ _ _ _ _).mp hpage).2, hz⟩ h

theorem route_leaderboard (hmethod : s.req.method = .get)
    (hpath : splitTarget s.req.target = (bytes "/api/leaderboard", query)) :
    s.route parse = s.leaderboard query := by
  have hhealth : bytes "/api/leaderboard" ≠ bytes "/api/health" := by decide
  have hmetrics : bytes "/api/leaderboard" ≠ bytes "/metrics" := by decide
  have hops : bytes "/api/leaderboard" ≠ bytes "/ops/status" := by decide
  rw [route, hpath, hmethod]
  dsimp only
  rw [if_neg hhealth, if_neg hmetrics, if_neg hops, if_pos rfl]

theorem handleRequest_emits {sent : List (UInt64 × UInt64)}
    (h : ∀ requestStart traceId, ((s.started requestStart traceId).route parse).Emits pageOf sent) :
    (s.handleRequest parse).Emits pageOf sent := by
  apply Emits.bind (Quiet.request rfl)
  intro requestStart
  apply Emits.bind (Quiet.request rfl)
  intro traceId
  apply Emits.bind (Quiet.request rfl)
  intro _
  exact h requestStart traceId

theorem handleRequest_admits (hmethod : s.req.method = .get)
    (hpath : splitTarget s.req.target = (bytes "/api/leaderboard", query)) {page size : UInt64}
    (h : Admits query page size) : (s.handleRequest parse).Emits pageOf [(page, size)] := by
  apply handleRequest_emits
  intro requestStart traceId
  rw [route_leaderboard (s := s.started requestStart traceId) hmethod hpath, leaderboard_of_admits h]
  exact Emits.call rfl fun pageData => succeed_silent pageOf_sending _ _

theorem handleRequest_refuses (hmethod : s.req.method = .get)
    (hpath : splitTarget s.req.target = (bytes "/api/leaderboard", query)) (h : ¬ ∃ page size, Admits query page size) :
    (s.handleRequest parse).Silent pageOf := by
  apply handleRequest_emits
  intro requestStart traceId
  rw [route_leaderboard (s := s.started requestStart traceId) hmethod hpath, leaderboard_of_not h]
  exact fail_silent pageOf_sending _ _

def RangeError (res : Response) : Prop :=
  res.status = 400 ∧ ∃ now, res.body = envelope false .null (errorJson leaderboardRange) now

theorem handleRequest_rangeError (hmethod : s.req.method = .get)
    (hpath : splitTarget s.req.target = (bytes "/api/leaderboard", query)) (h : ¬ ∃ page size, Admits query page size) :
    (s.handleRequest parse).EmitsOne responseOf (validUtf8 s.req.target) RangeError := by
  apply handleRequest_emitsOne
  intro requestStart traceId
  rw [route_leaderboard (s := s.started requestStart traceId) hmethod hpath, leaderboard_of_not h]
  exact fail_emitsOne fun now => ⟨rfl, now, rfl⟩

/-- What the interface promises of a request for the leaderboard: it is asked
for exactly with the numbers that the parameters denote, and a request that
denotes none is answered with leaderboard_range. -/
structure LeaderboardRule (parse : Bytes → Option Json) (s : HttpSession) (query : Bytes) : Prop where
  asked : ∀ calls out, (s.handleRequest parse).Runs calls out →
    ∀ page size, (page, size) ∈ emitted pageOf calls ↔ Asks query page size
  refused : (¬ ∃ page size, Asks query page size) → ∀ calls out, (s.handleRequest parse).Runs calls out →
    out = .ok () ∧ ∃ res, emitted responseOf calls = [res] ∧ RangeError res

theorem leaderboardRule_of_admits (hmethod : s.req.method = .get)
    (hpath : splitTarget s.req.target = (bytes "/api/leaderboard", query)) {page size : UInt64}
    (h : Admits query page size) : LeaderboardRule parse s query ↔ Asks query page size := by
  have hsent : (s.handleRequest parse).Emits pageOf [(page, size)] := handleRequest_admits hmethod hpath h
  constructor
  · intro hrule
    have hrun := runs_replay HttpCall.refusal (s.handleRequest parse)
    exact (hrule.asked _ _ hrun page size).mp (by simp [hsent _ _ hrun])
  · intro hasks
    refine ⟨?_, fun hno => absurd ⟨page, size, hasks⟩ hno⟩
    intro calls out hr p z
    rw [hsent calls out hr, List.mem_singleton]
    constructor
    · intro heq
      cases heq
      exact hasks
    · intro hp
      exact Prod.ext (hp.1.unique hasks.1) (hp.2.unique hasks.2)

theorem leaderboardRule_of_not_admits (hmethod : s.req.method = .get)
    (hpath : splitTarget s.req.target = (bytes "/api/leaderboard", query)) (h : ¬ ∃ page size, Admits query page size) :
    LeaderboardRule parse s query ↔ validUtf8 s.req.target := by
  have hno : ¬ ∃ page size, Asks query page size := fun ⟨page, size, hasks⟩ => h ⟨page, size, hasks.admits⟩
  have hsent : (s.handleRequest parse).Silent pageOf := handleRequest_refuses hmethod hpath h
  have hone : (s.handleRequest parse).EmitsOne responseOf (validUtf8 s.req.target) RangeError :=
    handleRequest_rangeError hmethod hpath h
  constructor
  · intro hrule
    have hrun := runs_replay HttpCall.refusal (s.handleRequest parse)
    obtain ⟨-, res, hres, -⟩ := hrule.refused hno _ _ hrun
    rcases hone _ _ hrun with ⟨hvalid, -⟩ | ⟨-, hnone, -⟩
    · exact hvalid
    · rw [hres] at hnone
      cases hnone
  · intro hvalid
    constructor
    · intro calls out hr page size
      rw [hsent calls out hr]
      constructor
      · intro hmem
        cases hmem
      · intro hasks
        exact absurd ⟨page, size, hasks⟩ hno
    · intro _ calls out hr
      rcases hone calls out hr with ⟨-, hres, ⟨⟩, hout⟩ | ⟨hinvalid, -⟩
      · exact ⟨hout, hres⟩
      · exact absurd hvalid hinvalid

/-- The rule is kept exactly when the parameters denote two numbers, or the
handler does not take two numbers either and can log the target. -/
theorem leaderboardRule_iff (parse : Bytes → Option Json) (s : HttpSession) (query : Bytes)
    (hmethod : s.req.method = .get) (hpath : splitTarget s.req.target = (bytes "/api/leaderboard", query)) :
    LeaderboardRule parse s query ↔ (∃ page size, Asks query page size) ∨
      ((¬ ∃ page size, Admits query page size) ∧ validUtf8 s.req.target) := by
  constructor
  · intro hrule
    by_cases hadmits : ∃ page size, Admits query page size
    · obtain ⟨page, size, hadmits⟩ := hadmits
      exact Or.inl ⟨page, size, (leaderboardRule_of_admits hmethod hpath hadmits).mp hrule⟩
    · exact Or.inr ⟨hadmits, (leaderboardRule_of_not_admits hmethod hpath hadmits).mp hrule⟩
  · rintro (⟨page, size, hasks⟩ | ⟨hadmits, hvalid⟩)
    · exact (leaderboardRule_of_admits hmethod hpath hasks.admits).mpr hasks
    · exact (leaderboardRule_of_not_admits hmethod hpath hadmits).mpr hvalid

def leaderboardRequest (query : String) : HttpSession where
  config := ⟨10, []⟩
  req := { method := .get, target := bytes ("/api/leaderboard?" ++ query) }

theorem leaderboardRule_iff_second :
    LeaderboardRule (fun _ => none) (leaderboardRequest "page=2&size=7") (bytes "page=2&size=7") := by
  refine (leaderboardRule_iff _ _ _ rfl (by decide)).mpr (Or.inl ⟨2, 7, ?_, ?_⟩)
  · have hpage : (parseQueryParams (bytes "page=2&size=7")).lookup (bytes "page") = some (bytes "2") := by decide
    rw [hpage]
    exact ⟨by decide, List.all_eq_true.mp (by decide), by decide, by decide, by decide⟩
  · have hsize : (parseQueryParams (bytes "page=2&size=7")).lookup (bytes "size") = some (bytes "7") := by decide
    rw [hsize]
    exact ⟨by decide, List.all_eq_true.mp (by decide), by decide, by decide, by decide⟩

/-- A negative page is taken for the last one of all. -/
theorem not_leaderboardRule_of_minus :
    (∃ calls out, ((leaderboardRequest "page=-1").handleRequest fun _ => none).Runs calls out ∧
      (18446744073709551615, 10) ∈ emitted pageOf calls) ∧
    ¬ LeaderboardRule (fun _ => none) (leaderboardRequest "page=-1") (bytes "page=-1") := by
  have hpage : (parseQueryParams (bytes "page=-1")).lookup (bytes "page") = some (bytes "-1") := by decide
  have hsize : (parseQueryParams (bytes "page=-1")).lookup (bytes "size") = none := by decide
  have hadmits : Admits (bytes "page=-1") 18446744073709551615 10 := by
    rw [Admits, hpage, hsize]
    refine ⟨Or.inr ⟨[], some 45, bytes "1", ?_⟩, rfl⟩
    exact ⟨⟨by decide, by simp, by simp, by decide, List.all_eq_true.mp (by decide)⟩, by decide⟩
  have hrun := runs_replay HttpCall.refusal ((leaderboardRequest "page=-1").handleRequest fun _ => none)
  have hsent := handleRequest_admits rfl (by decide) hadmits _ _ hrun
  have hmem : (18446744073709551615, 10) ∈ emitted pageOf
      (((leaderboardRequest "page=-1").handleRequest fun _ => none).replay HttpCall.refusal).1 := by
    rw [hsent]
    exact List.mem_cons_self
  refine ⟨⟨_, _, hrun, hmem⟩, ?_⟩
  intro h
  have hasks := ((h.asked _ _ hrun _ _).mp hmem).1
  rw [hpage] at hasks
  exact absurd hasks.2.1 (by decide)

end HttpSession

end GameServer
