import LearnMuduo.Framework.Crossing
import LearnMuduo.Net.Server.Callbacks
import LearnMuduo.Net.Tcp.Shutdown

/-!
# Backpressure

The user of a connection is told of its backlog in two ways. The high water mark callback is called
before the backlog grows to the mark or over it, and the callback of a complete write when nothing
is left to be written. The first one is called without a test whether it is set.
-/

namespace LearnMuduo

open Framework

/-- The call tells of the backlog. -/
def Call.isReport : Call → Bool
  | .writeComplete => true
  | .highWaterMark _ => true
  | _ => false

namespace TcpConnection

variable {c c' c'' : TcpConnection} {op : ConnOp} {ops : List ConnOp}

/-- The bytes that are still to be written. -/
def backlog (c : TcpConnection) : Nat := c.sendBuf.readableBytes

def reports (c : TcpConnection) : List Call := c.calls.filter Call.isReport

/-- The step is a `sendInLoop` that writes all of its message at once. -/
def writesWhole (c : TcpConnection) : ConnOp → Bool
  | .sendInLoop message (.accepted n) =>
      c.state != .disconnected && c.writesDirectly && decide (message.bytes.length ≤ n)
  | _ => false

/-- What a step to `c'` is to report, `whole` if it writes all of a message at once. -/
def newReports (c : TcpConnection) (whole : Bool) (c' : TcpConnection) : List Call :=
  (if c.hasWriteCompleteCb = true ∧ (whole = true ∨ 0 < c.backlog ∧ c'.backlog = 0) then
    [.writeComplete] else []) ++
  if c.backlog < highWaterMark ∧ highWaterMark ≤ c'.backlog then
    [.highWaterMark c'.backlog] else []

/-- The backlog stays, and nothing is told of it. -/
structure Silent (c c' : TcpConnection) : Prop where
  sendBuf : c'.sendBuf = c.sendBuf
  reports : c'.reports = c.reports
  same : c'.hasWriteCompleteCb = c.hasWriteCompleteCb

namespace Silent

theorem of_calls (hsendBuf : c'.sendBuf = c.sendBuf) (calls : List Call)
    (hcalls : c'.calls = c.calls ++ calls) (hsilent : ∀ x ∈ calls, x.isReport = false)
    (hsame : c'.hasWriteCompleteCb = c.hasWriteCompleteCb) : Silent c c' := by
  refine ⟨hsendBuf, ?_, hsame⟩
  rw [TcpConnection.reports, TcpConnection.reports, hcalls, List.filter_append,
    List.filter_eq_nil_iff.mpr fun x hx => Bool.eq_false_iff.mp (hsilent x hx), List.append_nil]

theorem of_eq (hsendBuf : c'.sendBuf = c.sendBuf) (hcalls : c'.calls = c.calls)
    (hsame : c'.hasWriteCompleteCb = c.hasWriteCompleteCb) : Silent c c' :=
  of_calls hsendBuf [] (by rw [hcalls, List.append_nil]) (by simp) hsame

theorem refl (c : TcpConnection) : Silent c c := ⟨rfl, rfl, rfl⟩

theorem trans (h : Silent c c') (h' : Silent c' c'') : Silent c c'' :=
  ⟨h'.sendBuf.trans h.sendBuf, h'.reports.trans h.reports, h'.same.trans h.same⟩

theorem backlog (h : Silent c c') : c'.backlog = c.backlog :=
  congrArg Buffer.readableBytes h.sendBuf

theorem call (c : TcpConnection) {callback : Call} (h : callback.isReport = false) :
    Silent c (c.call callback) := by
  refine of_calls rfl [callback] rfl ?_ rfl
  simpa using h

theorem closed (c : TcpConnection) : Silent c c.closed :=
  of_calls rfl [.connectionChange .disconnected, .close] rfl (by decide) rfl

theorem handleReadWith (c : TcpConnection) (result : ReadvResult) :
    Silent c (c.handleReadWith result).val := by
  have hread : ∀ recvBuf, Silent c { c with recvBuf := recvBuf } := fun _ => of_eq rfl rfl rfl
  simp only [TcpConnection.handleReadWith, Checked.val_bind, Checked.val_ite, Checked.val_pure,
    handleClose_val]
  split
  · exact (hread _).trans (call _ rfl)
  · split
    · exact (hread _).trans (closed _)
    · exact hread _

theorem shutdownInLoop (c : TcpConnection) : Silent c c.shutdownInLoop := by
  rw [TcpConnection.shutdownInLoop]
  split
  · exact of_eq rfl rfl rfl
  · exact refl c

theorem forceCloseInLoop (c : TcpConnection) : Silent c c.forceCloseInLoop.val := by
  rw [forceCloseInLoop_val]
  split
  · exact closed c
  · exact refl c

theorem runTask (c : TcpConnection) (task : Task) : Silent c (c.runTask task).val := by
  cases task with
  | shutdownInLoop => exact shutdownInLoop c
  | forceCloseInLoop => exact forceCloseInLoop c
  | startReadInLoop =>
      change Silent c c.startReadInLoop
      rw [startReadInLoop]
      split
      · exact of_eq rfl rfl rfl
      · exact refl c
  | stopReadInLoop =>
      change Silent c c.stopReadInLoop
      rw [stopReadInLoop]
      split
      · exact of_eq rfl rfl rfl
      · exact refl c

theorem postTask_mt (c : TcpConnection) (inLoopThread : Bool) (task : Task) :
    Silent c (c.postTask_mt inLoopThread task).val := by
  cases inLoopThread with
  | true => exact runTask c task
  | false => exact of_eq rfl rfl rfl

theorem connectionDestroyed (c : TcpConnection) : Silent c c.connectionDestroyed.val := by
  simp only [TcpConnection.connectionDestroyed, Checked.val_bind, Checked.val_pure]
  split
  · exact of_calls rfl [.connectionChange .disconnected] rfl (by decide) rfl
  · exact of_eq rfl rfl rfl

end Silent

theorem newReports_of_le (hle : c'.backlog ≤ c.backlog) (whole : Bool) :
    c.newReports whole c' =
      if c.hasWriteCompleteCb = true ∧ (whole = true ∨ 0 < c.backlog ∧ c'.backlog = 0) then
        [.writeComplete] else [] := by
  have hrise : ¬ (c.backlog < highWaterMark ∧ highWaterMark ≤ c'.backlog) := by omega
  rw [newReports, if_neg hrise, List.append_nil]

theorem Silent.newReports (h : Silent c c') : c.newReports false c' = [] := by
  have hbacklog := h.backlog
  rw [newReports_of_le hbacklog.le, if_neg]
  rintro ⟨-, hwhole | hdrained⟩
  · cases hwhole
  · omega

theorem Silent.reports_eq (h : Silent c c') : c'.reports = c.reports ++ c.newReports false c' := by
  rw [h.newReports, List.append_nil, h.reports]

theorem reports_postWriteComplete (c : TcpConnection) :
    c.postWriteComplete.reports =
      c.reports ++ if c.hasWriteCompleteCb = true then [.writeComplete] else [] := by
  rw [postWriteComplete]
  split
  · rw [reports, call, List.filter_append]
    rfl
  · rw [List.append_nil]

section HandleWrite

theorem backlog_flushed (hqueue : ∃ q, c.sendBuf.Represents q) (n : Nat) :
    (c.flushed n).backlog = c.backlog - n := by
  obtain ⟨q, hq⟩ := hqueue
  change (c.sendBuf.retrieve n).val.readableBytes = c.sendBuf.readableBytes - n
  rw [(hq.retrieve n).length_eq, hq.length_eq, List.length_drop]

theorem reports_drained (c : TcpConnection) :
    c.drained.backlog = c.backlog ∧
      c.drained.reports =
        c.reports ++ if c.hasWriteCompleteCb = true then [.writeComplete] else [] := by
  have hposted := reports_postWriteComplete { c with channel := c.channel.disableWrite }
  have hsendBuf := (kept_postWriteComplete { c with channel := c.channel.disableWrite }).sendBuf
  rw [drained]
  split
  · have hshut := Silent.shutdownInLoop
      { c with channel := c.channel.disableWrite }.postWriteComplete
    exact ⟨hshut.backlog.trans (congrArg Buffer.readableBytes hsendBuf),
      hshut.reports.trans hposted⟩
  · exact ⟨congrArg Buffer.readableBytes hsendBuf, hposted⟩

theorem reports_handleWrite (hqueue : ∃ q, c.sendBuf.Represents q) {result : WriteResult}
    (hfits : result.Fits c.backlog) :
    (c.handleWrite result).val.reports =
      c.reports ++ c.newReports false (c.handleWrite result).val := by
  have hcount : result.count ≤ c.backlog := by
    cases result with
    | accepted n => exact hfits
    | failed errno => exact Nat.zero_le _
  have hflushed := backlog_flushed hqueue result.count
  rw [handleWrite_val]
  split
  · rename_i hwrites
    split
    · rename_i hempty
      have hempty' : (c.flushed result.count).backlog = 0 := hempty
      obtain ⟨hbacklog, hreports⟩ := reports_drained (c.flushed result.count)
      have hpos : 0 < c.backlog := Nat.lt_of_lt_of_le hwrites.2 hcount
      rw [newReports_of_le (by omega), hreports]
      congr 1
      have hdrained : 0 < c.backlog ∧ (c.flushed result.count).drained.backlog = 0 :=
        ⟨hpos, hbacklog.trans hempty'⟩
      simp only [hdrained, and_self, or_true, and_true]
      rfl
    · rename_i hrest
      have hrest' : (c.flushed result.count).backlog ≠ 0 := hrest
      rw [newReports_of_le (by omega), if_neg, List.append_nil]
      · rfl
      · rintro ⟨-, hwhole | hdrained⟩
        · cases hwhole
        · exact hrest' hdrained.2
  · exact (Silent.refl c).reports_eq

end HandleWrite

section SendInLoop

theorem reportHighWaterMark_eq (c : TcpConnection) (remain : Nat) :
    c.reportHighWaterMark remain =
      if c.backlog < highWaterMark ∧ highWaterMark ≤ c.backlog + remain then
        c.call (.highWaterMark (c.backlog + remain)) else c := by
  have hpositive : highWaterMark ≠ 0 := by decide
  rw [reportHighWaterMark, if_pos hpositive]
  refine if_congr ?_ rfl rfl
  rw [Bool.and_eq_true, decide_eq_true_iff, decide_eq_true_iff, and_comm]
  exact Iff.rfl

theorem reports_reportHighWaterMark (c : TcpConnection) (remain : Nat) :
    (c.reportHighWaterMark remain).reports = c.reports ++
      if c.backlog < highWaterMark ∧ highWaterMark ≤ c.backlog + remain then
        [.highWaterMark (c.backlog + remain)] else [] := by
  rw [reportHighWaterMark_eq]
  split
  · rw [reports, call, List.filter_append]
    rfl
  · rw [List.append_nil]

theorem reports_written (c : TcpConnection) (message : Memory) (result : WriteResult)
    (hup : c.state ≠ .disconnected) :
    (c.written message result).1.reports = c.reports ++
      if c.hasWriteCompleteCb = true ∧ c.writesWhole (.sendInLoop message result) = true then
        [.writeComplete] else [] := by
  have hstate : (c.state != .disconnected) = true := bne_iff_ne.mpr hup
  rw [written]
  cases hdirect : c.writesDirectly with
  | false =>
      have hwhole : c.writesWhole (.sendInLoop message result) = false := by
        cases result <;> simp [writesWhole, hdirect]
      simp [hwhole]
  | true =>
      cases result with
      | failed errno =>
          simp [writesWhole, writeDirectly]
      | accepted n =>
          have hposted := reports_postWriteComplete
            { c with socket := c.socket.accept (message.bytes.take n) }
          simp only [if_true, writeDirectly, writesWhole, hstate, hdirect, Bool.true_and,
            decide_eq_true_eq, Nat.sub_eq_zero_iff_le]
          split
          · rename_i hle
            rw [hposted]
            simp only [hle, and_true]
            rfl
          · rename_i hnot
            simp only [hnot, and_false, if_false, List.append_nil]
            rfl

theorem reports_of_calls (h : c'.calls = c.calls) : c'.reports = c.reports := by
  rw [reports, reports, h]

theorem backlog_appendRemaining (hqueue : ∃ q, c.sendBuf.Represents q) {message : Memory}
    {locals : SendLocals} (hlen : message.bytes.length < 2 ^ 31)
    (hle : locals.remain ≤ message.bytes.length)
    (hend : locals.sent + locals.remain ≤ message.bytes.length) :
    (c.appendRemaining message locals).val.backlog = c.backlog + locals.remain := by
  obtain ⟨q, hq⟩ := hqueue
  rw [backlog, backlog, sendBuf_appendRemaining, (hq.append _).length_eq, hq.length_eq,
    List.length_append, length_read_remain hlen hle hend]

theorem not_writesWhole_of_unwritten {message : Memory} {result : WriteResult}
    (h : 0 < c.unwritten message result) :
    c.writesWhole (.sendInLoop message result) = false := by
  cases result with
  | failed errno => rfl
  | accepted n =>
      rw [unwritten] at h
      rw [writesWhole]
      cases hdirect : c.writesDirectly with
      | false => simp
      | true =>
          rw [hdirect, if_pos rfl] at h
          have hnot : ¬ message.bytes.length ≤ n := by
            change 0 < message.bytes.length - n at h
            omega
          simp [hnot]

theorem reports_sendInLoop (hqueue : ∃ q, c.sendBuf.Represents q) {message : Memory}
    {result : WriteResult} (hlen : message.bytes.length < 2 ^ 31)
    (hfits : result.Fits message.bytes.length) :
    (c.sendInLoop message message.bytes.length result).val.reports =
      c.reports ++ c.newReports (c.writesWhole (.sendInLoop message result))
        (c.sendInLoop message message.bytes.length result).val := by
  by_cases hdown : c.state = .disconnected
  · have hwhole : c.writesWhole (.sendInLoop message result) = false := by
      cases result <;> simp [writesWhole, hdown]
    rw [sendInLoop, if_pos hdown, hwhole]
    exact (Silent.refl c).reports_eq
  · have hreports := reports_written c message result hdown
    have hsendBuf := (kept_written c message result).sendBuf
    have hbacklog : (c.written message result).1.backlog = c.backlog :=
      congrArg Buffer.readableBytes hsendBuf
    obtain ⟨hremain, hfault⟩ := written_remain c message result
    rw [c.sendInLoop_val message result hdown]
    split
    · rename_i hrest
      rw [Bool.and_eq_true, decide_eq_true_iff] at hrest
      obtain ⟨-, hle, hend⟩ := written_locals c hfits
      have hgrown := backlog_appendRemaining (hsendBuf ▸ hqueue) hlen hle hend
      have hwhole : c.writesWhole (.sendInLoop message result) = false := by
        rw [hremain] at hrest
        exact not_writesWhole_of_unwritten hrest.2
      rw [hwhole] at hreports ⊢
      rw [if_neg fun h => Bool.false_ne_true h.2, List.append_nil] at hreports
      have hundrained : ¬ (c.hasWriteCompleteCb = true ∧ (false = true ∨ 0 < c.backlog ∧
          c.backlog + (c.written message result).2.remain = 0)) := by
        rintro ⟨-, hfalse | hdrained⟩
        · cases hfalse
        · omega
      rw [reports_of_calls (calls_appendRemaining _ message _).1, reports_reportHighWaterMark,
        hreports, newReports, hgrown, hbacklog, if_neg hundrained, List.nil_append]
    · rw [newReports_of_le hbacklog.le, hreports, hbacklog]
      congr 1
      have hkeeps : ¬ (0 < c.backlog ∧ c.backlog = 0) := by omega
      simp only [hkeeps, or_false]

end SendInLoop

theorem reports_handleEvents (hqueue : ∃ q, c.sendBuf.Represents q) (currEvents : BitVec 32)
    (read : ReadvResult) {write : WriteResult} (hfits : write.Fits c.backlog) :
    (c.handleEvents currEvents read write).val.reports = c.reports ++
      c.newReports false (c.handleEvents currEvents read write).val := by
  have hclose : Silent c (if hangsUp currEvents then c.closed else c) := by
    split
    · exact Silent.closed c
    · exact Silent.refl c
  have hread : ∀ c₁ : TcpConnection,
      Silent c₁ (if reads currEvents then (c₁.handleReadWith read).val else c₁) := by
    intro c₁
    split
    · exact Silent.handleReadWith c₁ read
    · exact Silent.refl c₁
  have hsilent := hclose.trans (hread _)
  rw [handleEvents_val]
  dsimp only
  generalize (if hangsUp currEvents then c.closed else c) = c₁ at hsilent
  generalize (if reads currEvents then (c₁.handleReadWith read).val else c₁) = c₂ at hsilent
  split
  · have hwrite := reports_handleWrite (hsilent.sendBuf ▸ hqueue) (hsilent.backlog ▸ hfits)
    rw [hwrite, hsilent.reports, newReports, newReports, hsilent.same, hsilent.backlog]
  · exact hsilent.reports_eq

end TcpConnection

open TcpConnection in
theorem ConnStep.reports {c c' : TcpConnection} {op : ConnOp} (h : ConnStep c op c')
    (hqueue : ∃ q, c.sendBuf.Represents q) :
    c'.reports = c.reports ++ c.newReports (c.writesWhole op) c' := by
  obtain ⟨hallowed, rfl⟩ := h
  cases op with
  | connectionEstablished =>
      have hsilent : Silent c c.connectionEstablished.val :=
        Silent.of_calls rfl [.connectionChange .connected] rfl (by decide) rfl
      exact hsilent.reports_eq
  | handleEvents currEvents read write =>
      exact reports_handleEvents hqueue currEvents read hallowed.2
  | handleRead result => exact (Silent.handleReadWith c result).reports_eq
  | handleWrite result => exact reports_handleWrite hqueue hallowed.2
  | handleClose =>
      have hsilent : Silent c c.handleClose.val := by
        rw [handleClose_val]
        exact Silent.closed c
      exact hsilent.reports_eq
  | sendInLoop message result => exact reports_sendInLoop hqueue hallowed.2.1 hallowed.2.2
  | shutdown_mt inLoopThread =>
      have hsilent : Silent c (c.shutdown_mt inLoopThread).val := by
        rw [shutdown_mt]
        split
        · have hset : Silent c (c.setState .connecting) := Silent.of_eq rfl rfl rfl
          exact hset.trans (Silent.postTask_mt _ inLoopThread _)
        · exact Silent.refl c
      exact hsilent.reports_eq
  | forceClose =>
      have hsilent : Silent c c.forceClose := by
        rw [forceClose]
        split
        · exact Silent.of_eq rfl rfl rfl
        · exact Silent.refl c
      exact hsilent.reports_eq
  | forceCloseInLoop => exact (Silent.forceCloseInLoop c).reports_eq
  | startRead inLoopThread => exact (Silent.postTask_mt c inLoopThread _).reports_eq
  | stopRead inLoopThread => exact (Silent.postTask_mt c inLoopThread _).reports_eq
  | runTask =>
      have hsilent : Silent c c.runNextTask.val := by
        rw [runNextTask]
        split
        · exact Silent.refl c
        · rename_i task tasks _
          have htaken : Silent c { c with tasks := tasks } := Silent.of_eq rfl rfl rfl
          exact htaken.trans (Silent.runTask _ task)
      exact hsilent.reports_eq
  | connectionDestroyed => exact (Silent.connectionDestroyed c).reports_eq

namespace TcpConnection

section Run

variable {c c' : TcpConnection} {op : ConnOp} {ops : List ConnOp}

variable {hasHighWaterMarkCb : Bool}

end Run

end TcpConnection

end LearnMuduo
