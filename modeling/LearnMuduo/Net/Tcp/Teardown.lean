import LearnMuduo.Net.Tcp.StateOrder

/-!
# How often a connection is reported down

`handleClose` is reached from a hang-up, from a read at the end of the stream and from a forced
close, and has no guard against being run again. A forced close tests the state; events do not.
-/

namespace LearnMuduo

open Framework

namespace TcpConnection

variable {c c' : TcpConnection} {op : ConnOp} {ops : List ConnOp}

def ReportsOnce (c : TcpConnection) : Prop :=
  c.calls.count .close ≤ 1 ∧ c.calls.count (.connectionChange .disconnected) ≤ 1

/-- The step comes to `handleClose` at most once, and not at all if the connection is
DISCONNECTED. -/
def ClosesOnce (c : TcpConnection) (op : ConnOp) : Prop :=
  c.closings op ≤ if c.state = .disconnected then 0 else 1

instance (c : TcpConnection) (op : ConnOp) : Decidable (c.ClosesOnce op) :=
  inferInstanceAs (Decidable (_ ≤ _))

theorem closings_le_downs (c : TcpConnection) (op : ConnOp) : c.closings op ≤ c.downs op := by
  cases op with
  | connectionDestroyed => exact Nat.zero_le _
  | _ => exact Nat.le_refl _

theorem downs_le_one (h : c.closings op ≤ 1) : c.downs op ≤ 1 := by
  cases op with
  | connectionDestroyed => exact Bool.toNat_le _
  | _ => exact h

theorem disconnected_step (hfresh : c.Fresh) (hstep : ConnStep c op c')
    (hdown : c.state = .disconnected) : c'.state = .disconnected := by
  rw [hstep.does.state, nextState.eq_def]
  by_cases hdowns : 0 < c.downs op
  · rw [if_pos hdowns]
  · rw [if_neg hdowns]
    cases op with
    | connectionEstablished =>
        have hnot : c.established = false := hstep.1
        rcases hfresh with hestablished | hconnecting
        · rw [hnot] at hestablished
          exact absurd hestablished Bool.false_ne_true
        · rw [hdown] at hconnecting
          cases hconnecting
    | shutdown_mt _ => simp [hdown]
    | forceClose => simp [isUp, hdown]
    | _ => exact hdown

theorem not_disconnected_step (hstep : ConnStep c op c') (hdowns : c.downs op = 0)
    (hup : c.state ≠ .disconnected) : c'.state ≠ .disconnected := by
  rw [hstep.does.state, nextState.eq_def, hdowns, if_neg (Nat.lt_irrefl 0)]
  cases op with
  | connectionEstablished => exact StateE.noConfusion
  | shutdown_mt _ =>
      dsimp only
      split
      · decide
      · exact hup
  | forceClose =>
      dsimp only
      split
      · decide
      · exact hup
  | _ => exact hup

/-- A connection that is not down was not reported down; one that is, was. -/
structure Counted (c : TcpConnection) : Prop where
  fresh : c.Fresh
  up : c.state ≠ .disconnected →
    c.calls.count .close = 0 ∧ c.calls.count (.connectionChange .disconnected) = 0
  down : c.state = .disconnected → 0 < c.calls.count (.connectionChange .disconnected)

theorem Counted.step (h : c.Counted) (hstep : ConnStep c op c') : c'.Counted := by
  have hreported := hstep.does.reported
  have hle := closings_le_downs c op
  refine ⟨h.fresh.step hstep, fun hup => ?_, fun hdown => ?_⟩
  · have hbefore : c.state ≠ .disconnected := fun hdown =>
      hup (disconnected_step h.fresh hstep hdown)
    have hdowns : c.downs op = 0 := by
      by_contra hpos
      refine hup ?_
      rw [hstep.does.state, nextState.eq_def, if_pos (Nat.pos_of_ne_zero hpos)]
    rcases h.up hbefore with ⟨hclose, hchange⟩
    rw [hreported.close, hreported.down, hclose, hchange]
    omega
  · rw [hreported.down]
    by_cases hbefore : c.state = .disconnected
    · have hpos := h.down hbefore
      omega
    · by_cases hdowns : c.downs op = 0
      · exact absurd hdown (not_disconnected_step hstep hdowns hbefore)
      · omega

end TcpConnection

def SingleStep (c : TcpConnection) (op : ConnOp) (c' : TcpConnection) : Prop :=
  ConnStep c op c' ∧ c.ClosesOnce op

namespace TcpConnection

variable {c c' : TcpConnection} {op : ConnOp} {ops : List ConnOp}

theorem counted_create (sockfd : Int) (pending : List UInt8) (hasWriteCompleteCb : Bool) :
    (create sockfd pending hasWriteCompleteCb).Counted :=
  ⟨fresh_create sockfd pending hasWriteCompleteCb, fun _ => ⟨rfl, rfl⟩,
    fun hdown => StateE.noConfusion hdown⟩

theorem ReportsOnce.step (hcounted : c.Counted) (h : c.ReportsOnce) (hstep : SingleStep c op c') :
    c'.ReportsOnce := by
  rcases hstep with ⟨hstep, honce⟩
  have hreported := hstep.does.reported
  rw [ReportsOnce, hreported.close, hreported.down]
  rw [ClosesOnce] at honce
  by_cases hdown : c.state = .disconnected
  · have hdowns : c.downs op = 0 := by
      rw [if_pos hdown] at honce
      cases op with
      | connectionDestroyed => simp [downs, hdown]
      | _ => exact Nat.le_zero.mp honce
    rw [if_pos hdown] at honce
    rcases h with ⟨hclose, hchange⟩
    omega
  · rw [if_neg hdown] at honce
    have hdowns := downs_le_one honce
    rcases hcounted.up hdown with ⟨hclose, hchange⟩
    omega

/-- A step that comes to `handleClose` too often is seen in the reports. -/
theorem closesOnce_of_reportsOnce (hcounted : c.Counted) (hstep : ConnStep c op c')
    (h : c'.ReportsOnce) : c.ClosesOnce op := by
  have hreported := hstep.does.reported
  have hle := closings_le_downs c op
  rw [ReportsOnce, hreported.close, hreported.down] at h
  rw [ClosesOnce]
  by_cases hdown : c.state = .disconnected
  · have hpos := hcounted.down hdown
    rw [if_pos hdown]
    omega
  · rw [if_neg hdown]
    omega

theorem ReportsOnce.of_step (hstep : ConnStep c op c') (h : c'.ReportsOnce) : c.ReportsOnce := by
  have hreported := hstep.does.reported
  rw [ReportsOnce, hreported.close, hreported.down] at h
  constructor
  · omega
  · omega

/-- A connection is reported down at most once in exactly those runs in which no step comes to
`handleClose` twice, or once more when it is DISCONNECTED. -/
theorem reportsOnce_iff {sockfd : Int} {pending : List UInt8} {hasWriteCompleteCb : Bool}
    (h : Run ConnStep (create sockfd pending hasWriteCompleteCb) ops c) :
    c.ReportsOnce ↔ Run SingleStep (create sockfd pending hasWriteCompleteCb) ops c := by
  have hcreate := counted_create sockfd pending hasWriteCompleteCb
  have honce : (create sockfd pending hasWriteCompleteCb).ReportsOnce :=
    ⟨Nat.zero_le 1, Nat.zero_le 1⟩
  refine h.iff_forall_good connStep_deterministic (fun _ _ _ h hstep => h.step hstep)
    (fun t op u ht hstep => ?_) hcreate honce
  constructor
  · intro hu
    exact ⟨ReportsOnce.of_step hstep hu, closesOnce_of_reportsOnce ht hstep hu⟩
  · intro h
    exact h.1.step ht ⟨hstep, h.2⟩

/-- A hang-up with urgent data and the end of the stream, in one dispatch. -/
def hangUpAndEnd : List ConnOp :=
  [.connectionEstablished, .handleEvents (Channel.pollHup ||| Channel.pollPri) (.scattered [])
    (.accepted 0)]

theorem hangUpAndEnd_not_reportsOnce : ∃ c,
    Run ConnStep (create 5 [] false) hangUpAndEnd c ∧ c.calls.count .close = 2 ∧
      ¬ c.ReportsOnce := by
  have hestablished : ConnStep (create 5 [] false) .connectionEstablished _ := ⟨by decide, rfl⟩
  have hdispatch : ConnStep ((create 5 [] false).apply .connectionEstablished).val
      (.handleEvents (Channel.pollHup ||| Channel.pollPri) (.scattered []) (.accepted 0)) _ :=
    ⟨by decide, rfl⟩
  have hcount := hdispatch.does.reported.close
  refine ⟨_, (Run.nil.snoc hestablished).snoc hdispatch, hcount, ?_⟩
  intro honce
  rw [ReportsOnce, hcount] at honce
  exact absurd honce.1 (by decide)

/-- A forced close, and the hang-up of the peer before its task has run. -/
def forcedAndHangUp : List ConnOp :=
  [.connectionEstablished, .forceClose, .handleEvents Channel.pollHup (.scattered []) (.accepted 0),
    .runTask, .connectionDestroyed]

theorem reportsOnce_forcedAndHangUp : ∃ c,
    Run ConnStep (create 5 [] false) forcedAndHangUp c ∧ c.ReportsOnce := by
  have hrun : Run SingleStep (create 5 [] false) forcedAndHangUp _ :=
    ((((Run.nil.snoc ⟨⟨by decide, rfl⟩, by decide⟩).snoc ⟨⟨by decide, rfl⟩, by decide⟩).snoc
      ⟨⟨by decide, rfl⟩, by decide⟩).snoc ⟨⟨by decide, rfl⟩, by decide⟩).snoc
      ⟨⟨by decide, rfl⟩, by decide⟩
  have hconn := hrun.mono fun _ _ _ h => h.1
  exact ⟨_, hconn, (reportsOnce_iff hconn).mpr hrun⟩

end TcpConnection

end LearnMuduo
