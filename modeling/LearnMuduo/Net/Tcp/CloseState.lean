import LearnMuduo.Net.Tcp.ChannelUse

/-!
# The assertion of `handleClose`

`handleClose` asserts that the connection is CONNECTED or DISCONNECTED. A shutdown and a forced
close change the state when they are asked for, and a close that comes after one finds neither.
-/

namespace LearnMuduo

open Framework

/-- The states that `handleClose` asserts. -/
def StateE.closable : StateE → Bool
  | .connected => true
  | .disconnected => true
  | _ => false

namespace TcpConnection

variable {c c' : TcpConnection} {op : ConnOp} {ops : List ConnOp}

/-- A shutdown or a forced close is asked for while the connection is CONNECTED. -/
def Requests (c : TcpConnection) : ConnOp → Prop
  | .shutdown_mt _ => c.state = .connected
  | .forceClose => c.state = .connected
  | _ => False

/-- Every call of `handleClose` along the run finds what it asserts. -/
def FindsClosable (c : TcpConnection) (ops : List ConnOp) : Prop :=
  ∀ before op after c₁, ops = before ++ op :: after → Run ConnStep c before c₁ →
    ∀ state ∈ closeStates (c₁.applyTraced op), state.closable = true

/-- No step that comes to `handleClose` comes after such a request. -/
def ClosesUnasked (c : TcpConnection) (ops : List ConnOp) : Prop :=
  ∀ before request between op after c₁ c₂,
    ops = before ++ request :: (between ++ op :: after) → Run ConnStep c before c₁ →
      c₁.Requests request → Run ConnStep c (before ++ request :: between) c₂ → c₂.closings op = 0

theorem foundBy_closable {state : StateE} {n : Nat} :
    (∀ x ∈ foundBy state n, x.closable = true) ↔ (0 < n → state.closable = true) := by
  cases n with
  | zero => simp [foundBy]
  | succ n =>
      rw [foundBy, List.forall_mem_cons]
      refine ⟨fun h _ => h.1, fun h => ⟨h (Nat.succ_pos n), fun x hx => ?_⟩⟩
      rw [List.eq_of_mem_replicate hx]
      rfl

theorem closable_iff (c : TcpConnection) (op : ConnOp) :
    (∀ state ∈ closeStates (c.applyTraced op), state.closable = true) ↔
      (0 < c.closings op → c.state.closable = true) := by
  rw [closeStates_applyTraced]
  exact foundBy_closable

theorem not_closable_step (hestablished : c.established = true)
    (hstate : c.state.closable = false) (hstep : ConnStep c op c') (hop : c.closings op = 0) :
    c'.state.closable = false := by
  have hconnected : c.state ≠ .connected := by
    intro h
    rw [h] at hstate
    exact Bool.false_ne_true hstate.symm
  have hdowns : c.downs op = 0 := by
    cases op with
    | connectionDestroyed => simp [downs, hconnected]
    | _ => exact hop
  rw [hstep.does.state, nextState.eq_def, hdowns, if_neg (Nat.lt_irrefl 0)]
  cases op with
  | connectionEstablished =>
      have hnot : c.established = false := hstep.1
      rw [hestablished] at hnot
      exact absurd hnot.symm Bool.false_ne_true
  | shutdown_mt _ =>
      simp only [if_neg hconnected]
      exact hstate
  | forceClose =>
      dsimp only
      split
      · rfl
      · exact hstate
  | _ => exact hstate

theorem Requests.step (h : c.Requests op) (hstep : ConnStep c op c') :
    c'.established = true ∧ c'.state.closable = false := by
  have hcalls := hstep.does.reported.calls
  cases op with
  | shutdown_mt inLoopThread =>
      have hstate : c.state = .connected := h
      refine ⟨established_mono hcalls hstep.1, ?_⟩
      rw [hstep.does.state]
      simp [nextState, downs, closings, hstate, StateE.closable]
  | forceClose =>
      have hstate : c.state = .connected := h
      refine ⟨established_mono hcalls hstep.1, ?_⟩
      rw [hstep.does.state]
      simp [nextState, downs, closings, isUp, hstate, StateE.closable]
  | _ => exact h.elim

theorem not_closable_of_run {c₀ : TcpConnection} {before rest : List ConnOp}
    (hall : FindsClosable c₀ (before ++ rest)) (hbefore : Run ConnStep c₀ before c)
    (hestablished : c.established = true) (hstate : c.state.closable = false)
    (h : Run ConnStep c ops c') {after : List ConnOp} (hrest : rest = ops ++ after) :
    c'.established = true ∧ c'.state.closable = false := by
  induction h generalizing after with
  | nil => exact ⟨hestablished, hstate⟩
  | @snoc ops t op u hrun hstep ih =>
      have hsplit : rest = ops ++ op :: after := by simpa using hrest
      rcases ih hsplit with ⟨htestablished, htstate⟩
      have hfinds := hall (before ++ ops) op after t (by rw [hsplit, List.append_assoc])
        (hbefore.append hrun)
      have hop : t.closings op = 0 := by
        by_contra hpos
        rw [(closable_iff t op).mp hfinds (Nat.pos_of_ne_zero hpos)] at htstate
        exact Bool.false_ne_true htstate.symm
      exact ⟨established_mono hstep.does.reported.calls htestablished,
        not_closable_step htestablished htstate hstep hop⟩

/-- An established connection is in a state that is not asserted only after a request. -/
theorem exists_request (hfresh : c.Fresh) (hnot : c.established = false)
    (h : Run ConnStep c ops c') (hestablished : c'.established = true)
    (hstate : c'.state.closable = false) :
    ∃ before request between c₁, ops = before ++ request :: between ∧
      Run ConnStep c before c₁ ∧ c₁.Requests request := by
  induction h with
  | nil => exact absurd (hnot.symm.trans hestablished) Bool.false_ne_true
  | @snoc ops t op u hrun hstep ih =>
      have htfresh : t.Fresh := hrun.invariant (fun _ _ _ h hstep => h.step hstep) hfresh
      by_cases htestablished : t.established = true
      · cases htstate : t.state.closable with
        | false =>
            rcases ih htestablished htstate with ⟨before, request, between, c₁, rfl, h₁, hasks⟩
            exact ⟨before, request, between ++ [op], c₁, by simp, h₁, hasks⟩
        | true =>
            refine ⟨ops, op, [], t, rfl, hrun, ?_⟩
            by_cases hdown : t.state = .disconnected
            · rw [disconnected_step htfresh hstep hdown] at hstate
              exact absurd hstate.symm Bool.false_ne_true
            · have hconnected : t.state = .connected := by
                cases hcases : t.state with
                | connected => rfl
                | disconnected => exact absurd hcases hdown
                | connecting =>
                    rw [hcases] at htstate
                    exact absurd htstate Bool.false_ne_true
                | disconnecting =>
                    rw [hcases] at htstate
                    exact absurd htstate Bool.false_ne_true
              rw [hstep.does.state, nextState.eq_def] at hstate
              split at hstate
              · exact absurd hstate.symm Bool.false_ne_true
              · cases op with
                | shutdown_mt _ => exact hconnected
                | forceClose => exact hconnected
                | connectionEstablished => exact absurd hstate.symm Bool.false_ne_true
                | _ =>
                    dsimp only at hstate
                    rw [hconnected] at hstate
                    exact absurd hstate.symm Bool.false_ne_true
      · have hop : op = .connectionEstablished := by
          by_contra hne
          exact htestablished (established_of_allowed hstep.1 hne)
        subst hop
        rw [hstep.2] at hstate
        exact absurd hstate.symm Bool.false_ne_true

/-- The assertion of `handleClose` holds along exactly those runs in which no step comes to
`handleClose` after a shutdown or a forced close of a CONNECTED connection. -/
theorem findsClosable_iff {sockfd : Int} {pending : List UInt8} {hasWriteCompleteCb : Bool}
    (h : Run ConnStep (create sockfd pending hasWriteCompleteCb) ops c) :
    FindsClosable (create sockfd pending hasWriteCompleteCb) ops ↔
      ClosesUnasked (create sockfd pending hasWriteCompleteCb) ops := by
  have hfresh := fresh_create sockfd pending hasWriteCompleteCb
  have hnot : (create sockfd pending hasWriteCompleteCb).established = false := rfl
  generalize create sockfd pending hasWriteCompleteCb = c₀ at h hfresh hnot ⊢
  constructor
  · intro hfinds before request between op after c₁ c₂ hops h₁ hrequests h₂
    have hsplit : before ++ request :: between = (before ++ [request]) ++ between := by simp
    rw [hsplit] at h₂
    rcases h₂.exists_of_append with ⟨c₁', hfirst, hbetween⟩
    rcases hfirst.exists_of_snoc with ⟨c₁'', hbefore, hstep⟩
    have hsame : c₁'' = c₁ := hbefore.unique connStep_deterministic h₁
    subst hsame
    have hops' : ops = (before ++ [request]) ++ (between ++ op :: after) := by simpa using hops
    rw [hops'] at hfinds
    rcases hrequests.step hstep with ⟨hestablished, hstate⟩
    have hstays := not_closable_of_run hfinds hfirst hestablished hstate hbetween rfl
    have hall := hfinds (before ++ [request] ++ between) op after c₂ (by simp) h₂
    by_contra hpos
    rw [(closable_iff c₂ op).mp hall (Nat.pos_of_ne_zero hpos)] at hstays
    exact Bool.false_ne_true hstays.2.symm
  · intro hunasked before op after c₁ hops h₁
    rw [closable_iff]
    intro hpos
    by_contra hstate
    have hallowed : c₁.Allowed op := by
      have hsplit : ops = (before ++ [op]) ++ after := by simpa using hops
      rw [hsplit] at h
      rcases h.exists_of_append with ⟨_, hfirst, _⟩
      rcases hfirst.exists_of_snoc with ⟨c₁', hbefore, hstep⟩
      rw [hbefore.unique connStep_deterministic h₁] at hstep
      exact hstep.1
    have hne : op ≠ .connectionEstablished := by
      intro heq
      rw [heq] at hpos
      exact Nat.lt_irrefl 0 hpos
    rcases exists_request hfresh hnot h₁ (established_of_allowed hallowed hne)
      (Bool.eq_false_iff.mpr hstate) with ⟨first, request, between, c₂, rfl, h₂, hrequests⟩
    have hzero := hunasked first request between op after c₂ c₁ (by simpa using hops) h₂ hrequests
      h₁
    omega

/-- The peer hangs up, and then the user tries to close. -/
def hangUpFirst : List ConnOp :=
  [.connectionEstablished, .handleClose, .forceClose, .connectionDestroyed]

theorem findsClosable_hangUpFirst : ∃ c,
    Run ConnStep (create 5 [] false) hangUpFirst c ∧
      (FindsClosable (create 5 [] false) hangUpFirst ↔
        ClosesUnasked (create 5 [] false) hangUpFirst) := by
  have hrun : Run ConnStep (create 5 [] false) hangUpFirst _ :=
    (((Run.nil.snoc ⟨by decide, rfl⟩).snoc ⟨by decide, rfl⟩).snoc ⟨by decide, rfl⟩).snoc
      ⟨by decide, rfl⟩
  exact ⟨_, hrun, findsClosable_iff hrun⟩

/-- A forced close of a connection that is up finds DISCONNECTING when its task runs. -/
theorem forceClose_not_findsClosable : ∃ c,
    Run ConnStep (create 5 [] false) [.connectionEstablished, .forceClose, .runTask] c ∧
      ¬ FindsClosable (create 5 [] false) [.connectionEstablished, .forceClose, .runTask] := by
  have hbefore : Run ConnStep (create 5 [] false) [.connectionEstablished, .forceClose] _ :=
    (Run.nil.snoc ⟨by decide, rfl⟩).snoc ⟨by decide, rfl⟩
  refine ⟨_, hbefore.snoc ⟨by decide, rfl⟩, fun hfinds => ?_⟩
  have hfound := hfinds [.connectionEstablished, .forceClose] .runTask [] _ rfl hbefore
  rw [closable_iff] at hfound
  exact Bool.false_ne_true (hfound (by decide))

end TcpConnection

end LearnMuduo
