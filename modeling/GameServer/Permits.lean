import GameServer.Program

namespace GameServer

namespace Program

variable {Op : Type} {Answer : Op → Type} {ε α β : Type}

/-- Every call is one that the calls before it permit, and the condition holds
where the program ends. The list has those made already. -/
def Permits (ok : List (Sigma Answer) → Op → Prop) :
    Program Op Answer ε α → (List (Sigma Answer) → Except ε α → Prop) → List (Sigma Answer) → Prop
  | .pure value, post, calls => post calls (.ok value)
  | .throw e, post, calls => post calls (.error e)
  | .call op next, post, calls => ok calls op ∧ ∀ answer, (next answer).Permits ok post (calls ++ [⟨op, answer⟩])

namespace Permits

variable {ok : List (Sigma Answer) → Op → Prop} {post post' : List (Sigma Answer) → Except ε α → Prop}
  {calls : List (Sigma Answer)} {p : Program Op Answer ε α}

theorem mono (h : p.Permits ok post calls) (himp : ∀ calls out, post calls out → post' calls out) :
    p.Permits ok post' calls := by
  induction p generalizing calls with
  | pure value => exact himp _ _ h
  | throw e => exact himp _ _ h
  | call op next ih => exact ⟨h.1, fun answer => ih answer (h.2 answer)⟩

theorem request {op : Op} {post : List (Sigma Answer) → Except ε (Answer op) → Prop} (h : ok calls op)
    (hpost : ∀ answer, post (calls ++ [⟨op, answer⟩]) (.ok answer)) :
    (Program.request op : Program Op Answer ε (Answer op)).Permits ok post calls :=
  ⟨h, hpost⟩

theorem request_bind {op : Op} {f : Answer op → Program Op Answer ε β}
    {post : List (Sigma Answer) → Except ε β → Prop} (h : ok calls op)
    (hf : ∀ answer, (f answer).Permits ok post (calls ++ [⟨op, answer⟩])) :
    (Program.request op >>= f).Permits ok post calls :=
  ⟨h, hf⟩

theorem tryCatch {handle : ε → Program Op Answer ε α}
    (h : p.Permits ok (fun calls out => match out with
      | .ok value => post calls (.ok value)
      | .error e => (handle e).Permits ok post calls) calls) : (p.tryCatch handle).Permits ok post calls := by
  induction p generalizing calls with
  | pure value => exact h
  | throw e => exact h
  | call op next ih => exact ⟨h.1, fun answer => ih answer (h.2 answer)⟩

theorem after (hp : p.Permits ok post []) {rest : Program Op Answer ε α} (h : p.After calls rest) :
    rest.Permits ok post calls ∧ ∀ pre call later, calls = pre ++ call :: later → ok pre call.1 := by
  induction h with
  | start => exact ⟨hp, by simp⟩
  | @call calls op next h answer ih =>
      obtain ⟨⟨hop, hnext⟩, hcalls⟩ := ih
      refine ⟨hnext answer, ?_⟩
      intro pre call later hsplit
      rcases List.eq_nil_or_concat later with rfl | ⟨later, last, rfl⟩
      · obtain ⟨rfl, hlast⟩ := List.append_inj' hsplit rfl
        rw [← (List.cons.inj hlast).1]
        exact hop
      · rw [List.concat_eq_append] at hsplit
        have hfront := (List.append_inj' (hsplit.trans (List.append_assoc pre (_ :: later) [last]).symm) rfl).1
        exact hcalls pre call later hfront

end Permits

end Program

end GameServer
