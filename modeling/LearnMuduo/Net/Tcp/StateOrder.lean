import LearnMuduo.Net.Tcp.Lifecycle

/-!
# The order of the states of a connection

A connection goes through CONNECTING, CONNECTED, DISCONNECTING and DISCONNECTED in this order. All
operations keep to it, but for `shutdown_mt`, which puts a connection that is up back to CONNECTING.
-/

namespace LearnMuduo

open Framework

namespace TcpConnection

variable {c c' : TcpConnection} {op : ConnOp} {ops : List ConnOp}

/-- A connection that is not established yet is CONNECTING. -/
def Fresh (c : TcpConnection) : Prop := c.established = true ∨ c.state = .connecting

theorem established_mono (hcalls : c.calls <+: c'.calls) (h : c.established = true) :
    c'.established = true := by
  rw [established, List.contains_iff_mem] at h ⊢
  exact hcalls.subset h

theorem established_of_allowed (h : c.Allowed op) (hop : op ≠ .connectionEstablished) :
    c.established = true := by
  cases op with
  | connectionEstablished => exact absurd rfl hop
  | handleEvents _ _ _ => exact h.1
  | handleWrite _ => exact h.1
  | sendInLoop _ _ => exact h.1
  | runTask => exact h.1
  | _ => exact h

theorem Fresh.step (h : c.Fresh) (hstep : ConnStep c op c') : c'.Fresh := by
  have hcalls := hstep.does.reported.calls
  rcases h with hestablished | hconnecting
  · exact Or.inl (established_mono hcalls hestablished)
  · by_cases hestablished : c.established = true
    · exact Or.inl (established_mono hcalls hestablished)
    · have hop : op = .connectionEstablished := by
        by_contra hne
        exact hestablished (established_of_allowed hstep.1 hne)
      subst hop
      refine Or.inl ?_
      rw [hstep.2, established, List.contains_iff_mem]
      exact List.mem_append_right _ List.mem_cons_self

theorem connected_of_step (hestablished : c.established = true) (hstep : ConnStep c op c')
    (h : c'.state = .connected) : c.state = .connected := by
  rw [hstep.does.state, nextState.eq_def] at h
  by_cases hdown : 0 < c.downs op
  · rw [if_pos hdown] at h
    cases h
  · rw [if_neg hdown] at h
    cases op with
    | connectionEstablished =>
        have hnot : c.established = false := hstep.1
        rw [hestablished] at hnot
        exact absurd hnot.symm Bool.false_ne_true
    | shutdown_mt _ =>
        dsimp only at h
        split at h
        · cases h
        · exact h
    | forceClose =>
        dsimp only at h
        split at h
        · cases h
        · exact h
    | _ => exact h

/-- A call of `shutdown_mt` that takes effect. -/
def ShutsDown (c : TcpConnection) : ConnOp → Prop
  | .shutdown_mt _ => c.state = .connected
  | _ => False

theorem rank_le_of_not_shutsDown (h : c.Fresh) (hstep : ConnStep c op c')
    (hop : ¬ c.ShutsDown op) : c.state.rank ≤ c'.state.rank := by
  have htop : ∀ state : StateE, state.rank ≤ StateE.disconnected.rank := by
    intro state
    cases state <;> decide
  rw [hstep.does.state, nextState.eq_def]
  by_cases hdown : 0 < c.downs op
  · rw [if_pos hdown]
    exact htop c.state
  · rw [if_neg hdown]
    cases op with
    | connectionEstablished =>
        have hconnecting : c.state = .connecting := by
          refine h.resolve_left ?_
          rw [show c.established = false from hstep.1]
          exact Bool.false_ne_true
        rw [hconnecting]
        exact Nat.zero_le _
    | shutdown_mt _ =>
        have hnot : ¬ c.state = .connected := hop
        simp only [if_neg hnot]
        exact Nat.le_refl _
    | forceClose =>
        dsimp only
        split
        · rename_i hup
          rcases (isUp_iff c).mp hup with hstate | hstate
          · rw [hstate]
            exact Nat.le_succ _
          · rw [hstate]
        · exact Nat.le_refl _
    | _ => exact Nat.le_refl _

theorem rank_lt_of_shutsDown (hstep : ConnStep c op c') (hop : c.ShutsDown op) :
    c'.state.rank < c.state.rank := by
  cases op with
  | shutdown_mt _ =>
      have hstate : c.state = .connected := hop
      rw [hstep.does.state, hstate]
      simp only [nextState, downs, closings, hstate]
      decide
  | _ => exact hop.elim

/-- No state along the run is earlier than one before it. -/
def MovesForward (c : TcpConnection) (ops : List ConnOp) : Prop :=
  ∀ before between after, ops = before ++ between ++ after → ∀ c₁ c₂,
    Run ConnStep c before c₁ → Run ConnStep c₁ between c₂ → c₁.state.rank ≤ c₂.state.rank

end TcpConnection

def OpenStep (c : TcpConnection) (op : ConnOp) (c' : TcpConnection) : Prop :=
  ConnStep c op c' ∧ ¬ c.ShutsDown op

namespace TcpConnection

variable {c c' : TcpConnection} {op : ConnOp} {ops : List ConnOp}

theorem connStep_deterministic (c : TcpConnection) (op : ConnOp) (u u' : TcpConnection)
    (h : ConnStep c op u) (h' : ConnStep c op u') : u = u' :=
  h.2.trans h'.2.symm

theorem fresh_create (sockfd : Int) (pending : List UInt8) (hasWriteCompleteCb : Bool) :
    (create sockfd pending hasWriteCompleteCb).Fresh := Or.inr rfl

theorem rank_le_of_run (hc : c.Fresh) (h : Run OpenStep c ops c') :
    c.state.rank ≤ c'.state.rank := by
  induction h with
  | nil => exact Nat.le_refl _
  | @snoc ops t op u hrun hstep ih =>
      have ht : t.Fresh := hrun.invariant (fun _ _ _ h hstep => h.step hstep.1) hc
      exact Nat.le_trans ih (rank_le_of_not_shutsDown ht hstep.1 hstep.2)

/-- The state of a connection moves forward in exactly those runs in which `shutdown_mt` is never
called on a CONNECTED connection. -/
theorem movesForward_iff {sockfd : Int} {pending : List UInt8} {hasWriteCompleteCb : Bool}
    (h : Run ConnStep (create sockfd pending hasWriteCompleteCb) ops c) :
    MovesForward (create sockfd pending hasWriteCompleteCb) ops ↔
      Run OpenStep (create sockfd pending hasWriteCompleteCb) ops c := by
  have hfresh := fresh_create sockfd pending hasWriteCompleteCb
  generalize create sockfd pending hasWriteCompleteCb = c₀ at h hfresh ⊢
  constructor
  · intro hforward
    induction h with
    | nil => exact Run.nil
    | @snoc ops t op u hrun hstep ih =>
        refine (ih ?_).snoc ⟨hstep, ?_⟩
        · intro before between after hops c₁ c₂ h₁ h₂
          exact hforward before between (after ++ [op])
            (by rw [hops, List.append_assoc _ after]) c₁ c₂ h₁ h₂
        · intro hshuts
          have hle := hforward ops [op] [] (List.append_nil _).symm t u hrun (Run.single hstep)
          exact Nat.not_le_of_lt (rank_lt_of_shutsDown hstep hshuts) hle
  · intro hopen before between after hops c₁ c₂ h₁ h₂
    rw [hops] at hopen
    rcases hopen.exists_of_append with ⟨u₂, hfirst, _⟩
    rcases hfirst.exists_of_append with ⟨u₁, hbefore, hbetween⟩
    have hsame₁ : c₁ = u₁ := h₁.unique connStep_deterministic (hbefore.mono fun _ _ _ h => h.1)
    subst hsame₁
    have hsame₂ : c₂ = u₂ := h₂.unique connStep_deterministic (hbetween.mono fun _ _ _ h => h.1)
    subst hsame₂
    have ht : c₁.Fresh := hbefore.invariant (fun _ _ _ h hstep => h.step hstep.1) hfresh
    exact rank_le_of_run ht hbetween

/-- An established connection that is shut down is CONNECTING again. -/
theorem shutdown_not_movesForward :
    ¬ MovesForward (create 5 [] false) [.connectionEstablished, .shutdown_mt true] := by
  intro hforward
  have hle := hforward [.connectionEstablished] [.shutdown_mt true] [] rfl _ _
    (Run.single ⟨by decide, rfl⟩) (Run.single ⟨by decide, rfl⟩)
  exact absurd hle (by decide)

theorem movesForward_forceClose :
    MovesForward (create 5 [] false)
      [.connectionEstablished, .forceClose, .runTask, .connectionDestroyed] := by
  have hrun : Run OpenStep (create 5 [] false)
      [.connectionEstablished, .forceClose, .runTask, .connectionDestroyed] _ :=
    (((Run.nil.snoc ⟨⟨by decide, rfl⟩, not_false⟩).snoc ⟨⟨by decide, rfl⟩, not_false⟩).snoc
      ⟨⟨by decide, rfl⟩, not_false⟩).snoc ⟨⟨by decide, rfl⟩, not_false⟩
  exact (movesForward_iff (hrun.mono fun _ _ _ h => h.1)).mpr hrun

end TcpConnection

end LearnMuduo
