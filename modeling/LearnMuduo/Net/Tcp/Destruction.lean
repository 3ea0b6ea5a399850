import LearnMuduo.Net.Poller.Epoll
import LearnMuduo.Net.Poller.Poll
import LearnMuduo.Net.Tcp.ChannelUse
import LearnMuduo.Net.Tcp.Shutdown

/-!
# Destroying a connection

A connection together with the epoll poller that its channel is registered with, and with other
channels of that poller. What the connection does with its channel, the poller is told.
`connectionDestroyed` clears the interest of a CONNECTED connection only.
-/

namespace LearnMuduo

open Framework

namespace EpollPoller

variable {C : Type} [DecidableEq C]

/-- The poller's part in a use of the channel `own`. -/
def use (s : EpollPoller C) (own : C) : ChannelUse → Checked (EpollPoller C)
  | .closes _ => pure s
  | .sets interest => s.apply (.set own interest)
  | .removes => s.apply (.remove own)

def useAll (s : EpollPoller C) (own : C) : List ChannelUse → Checked (EpollPoller C)
  | [] => pure s
  | u :: us => do
      let s ← s.use own u
      s.useAll own us

end EpollPoller

structure HostedConnection (C : Type) where
  conn : TcpConnection
  poller : EpollPoller C

/-- An operation of the connection, or a call on another channel of the poller. -/
inductive HostLabel (C : Type)
  | conn (op : ConnOp)
  | other (op : PollerOp C)

/-- A step of the release build. -/
def HostStep {C : Type} [DecidableEq C] (own : C) (h : HostedConnection C) :
    HostLabel C → HostedConnection C → Prop
  | .conn op, h' => ConnStep h.conn op h'.conn ∧
      h'.poller = (h.poller.useAll own (h.conn.applyTraced op).events).val
  | .other op, h' => op.channel ≠ own ∧ EpollPoller.Step h.poller op h'.poller ∧
      h'.conn = h.conn

namespace TcpConnection

variable {c c' : TcpConnection} {op : ConnOp}

section Removes

/-- The channel is not removed. -/
def KeepsChannel (x : Traced ChannelUse TcpConnection) : Prop := x.All (· ≠ .removes)

theorem keepsChannel_pure (c : TcpConnection) : KeepsChannel (pure c) := Traced.all_pure c

theorem keepsChannel_setTraced (c : TcpConnection) (interest : Interest) :
    KeepsChannel (c.setTraced interest) :=
  (Traced.all_emit (by simp)).bind (Traced.all_pure _)

theorem keepsChannel_handleCloseTraced (c : TcpConnection) : KeepsChannel c.handleCloseTraced :=
  (Traced.all_emit (by simp)).bind
    ((keepsChannel_setTraced _ _).bind (Traced.all_pure _))

theorem keepsChannel_ite {p : Prop} [Decidable p] {x y : Traced ChannelUse TcpConnection}
    (hx : KeepsChannel x) (hy : KeepsChannel y) : KeepsChannel (if p then x else y) :=
  Traced.all_ite (fun _ => hx) (fun _ => hy)

theorem keepsChannel_handleReadTraced (c : TcpConnection) (result : ReadvResult) :
    KeepsChannel (c.handleReadTraced result) := by
  apply keepsChannel_ite
  · exact keepsChannel_pure _
  · apply keepsChannel_ite
    · exact keepsChannel_handleCloseTraced _
    · exact keepsChannel_pure _

theorem keepsChannel_handleWriteTraced (c : TcpConnection) (result : WriteResult) :
    KeepsChannel (c.handleWriteTraced result) := by
  cases result with
  | failed errno => exact keepsChannel_ite (keepsChannel_pure c) (keepsChannel_pure c)
  | accepted n =>
      apply keepsChannel_ite
      · apply keepsChannel_ite
        · apply keepsChannel_ite
          · exact (keepsChannel_setTraced _ _).bind
              (keepsChannel_ite (keepsChannel_pure _) (keepsChannel_pure _))
          · exact keepsChannel_pure _
        · exact keepsChannel_pure c
      · exact keepsChannel_pure c

theorem keepsChannel_sendInLoopTraced (c : TcpConnection) (message : Memory) (len : Nat)
    (result : WriteResult) : KeepsChannel (c.sendInLoopTraced message len result) := by
  apply keepsChannel_ite
  · exact keepsChannel_pure c
  · apply keepsChannel_ite
    · exact keepsChannel_ite (keepsChannel_setTraced _ _) (keepsChannel_pure _)
    · exact keepsChannel_pure _

theorem keepsChannel_runTaskTraced (c : TcpConnection) (task : Task) :
    KeepsChannel (c.runTaskTraced task) := by
  cases task with
  | shutdownInLoop => exact keepsChannel_pure _
  | forceCloseInLoop =>
      exact keepsChannel_ite (keepsChannel_handleCloseTraced c) (keepsChannel_pure c)
  | startReadInLoop =>
      exact keepsChannel_ite ((keepsChannel_setTraced _ _).bind (keepsChannel_pure _))
        (keepsChannel_pure c)
  | stopReadInLoop =>
      exact keepsChannel_ite ((keepsChannel_setTraced _ _).bind (keepsChannel_pure _))
        (keepsChannel_pure c)

theorem keepsChannel_postTaskTraced (c : TcpConnection) (inLoopThread : Bool) (task : Task) :
    KeepsChannel (c.postTaskTraced inLoopThread task) :=
  keepsChannel_ite (keepsChannel_runTaskTraced c task) (keepsChannel_pure _)

theorem keepsChannel_handleEventsTraced (c : TcpConnection) (currEvents : BitVec 32)
    (read : ReadvResult) (write : WriteResult) :
    KeepsChannel (c.handleEventsTraced currEvents read write) := by
  rw [handleEventsTraced_eq]
  apply Traced.All.bind
  · exact keepsChannel_ite (keepsChannel_handleCloseTraced c) (keepsChannel_pure c)
  · apply Traced.All.bind
    · exact keepsChannel_ite (keepsChannel_handleReadTraced _ read) (keepsChannel_pure _)
    · exact keepsChannel_ite (keepsChannel_handleWriteTraced _ write) (keepsChannel_pure _)

theorem keepsChannel_applyTraced (c : TcpConnection) (hop : op ≠ .connectionDestroyed) :
    KeepsChannel (c.applyTraced op) := by
  cases op with
  | connectionEstablished => exact (keepsChannel_setTraced _ _).bind (keepsChannel_pure _)
  | handleEvents currEvents read write =>
      exact keepsChannel_handleEventsTraced c currEvents read write
  | handleRead result => exact keepsChannel_handleReadTraced c result
  | handleWrite result => exact keepsChannel_handleWriteTraced c result
  | handleClose => exact keepsChannel_handleCloseTraced c
  | sendInLoop message result => exact keepsChannel_sendInLoopTraced c message _ result
  | shutdown_mt inLoopThread =>
      exact keepsChannel_ite (keepsChannel_postTaskTraced _ _ _) (keepsChannel_pure c)
  | forceClose => exact keepsChannel_pure _
  | forceCloseInLoop => exact keepsChannel_runTaskTraced c .forceCloseInLoop
  | startRead inLoopThread => exact keepsChannel_postTaskTraced c inLoopThread _
  | stopRead inLoopThread => exact keepsChannel_postTaskTraced c inLoopThread _
  | runTask =>
      show KeepsChannel c.runNextTaskTraced
      rw [runNextTaskTraced]
      cases c.tasks with
      | nil => exact keepsChannel_pure c
      | cons task tasks => exact keepsChannel_runTaskTraced _ task
  | connectionDestroyed => exact absurd rfl hop

end Removes

end TcpConnection

namespace HostedConnection

variable {C : Type} [DecidableEq C]

/-- A new connection, and a poller for channels with the descriptors `fd`, one of them the
connection's. -/
def create (fd : C → Int) (own : C) (pending : List UInt8) (hasWriteCompleteCb : Bool) :
    HostedConnection C :=
  ⟨TcpConnection.create (fd own) pending hasWriteCompleteCb, EpollPoller.create fd⟩

/-- `connectionDestroyed` passes the assertions of `Channel::remove` and of the poller, and leaves
the state that `~TcpConnection` asserts. -/
structure TearsDown (own : C) (h : HostedConnection C) : Prop where
  channel : h.conn.connectionDestroyed.ok = true
  poller : (h.poller.useAll own (h.conn.applyTraced .connectionDestroyed).events).ok = true
  state : h.conn.connectionDestroyed.val.state = .disconnected

/-- The poller knows the channel of an established connection, with its interest. -/
structure Hosted (fd : C → Int) (own : C) (h : HostedConnection C) : Prop where
  fresh : h.conn.Fresh
  flushing : h.conn.Flushing
  plain : PollPoller.Plain h.conn.channel.events
  consistent : EpollPoller.Consistent fd h.poller
  events : (h.poller.channels own).events = h.conn.channel.events
  known : h.conn.established = true → h.poller.channelMap (fd own) = some own

variable {fd : C → Int} {own : C}

theorem use_sets {s : EpollPoller C} (hinj : Function.Injective fd)
    (hs : EpollPoller.Consistent fd s) (interest : Interest) {channel : Channel}
    (hevents : (s.channels own).events = channel.events) :
    (s.use own (.sets interest)).ok = true ∧
      EpollPoller.Consistent fd (s.use own (.sets interest)).val ∧
      ((s.use own (.sets interest)).val.channels own).events = (channel.set interest).events ∧
      (s.use own (.sets interest)).val.channelMap (fd own) = some own := by
  have hallowed : s.Allowed (.set own interest) := trivial
  rcases EpollPoller.apply_succeeds hs hallowed with ⟨hok, x, watched, hval, -, hx, -⟩
  have hstep : EpollPoller.Step s (.set own interest) _ := ⟨hallowed, rfl⟩
  refine ⟨hok, hstep.consistent hinj hs, ?_, ?_⟩
  · show ((s.apply (.set own interest)).val.channels own).events = _
    rw [hval]
    show (Function.update s.channels own x own).events = _
    rw [Function.update_self, hx]
    exact PollerOp.events_change (.set own interest) hevents
  · show (s.apply (.set own interest)).val.channelMap (fd own) = some own
    rw [hval]
    show Function.update s.channelMap (s.channels own).fd (some own) (fd own) = some own
    rw [hs.fds, Function.update_self]

theorem useAll_keeps (hinj : Function.Injective fd) {uses : List ChannelUse}
    (hkeeps : ∀ u ∈ uses, u ≠ .removes) {s : EpollPoller C} (hs : EpollPoller.Consistent fd s)
    {channel : Channel} (hevents : (s.channels own).events = channel.events) :
    (s.useAll own uses).ok = true ∧ EpollPoller.Consistent fd (s.useAll own uses).val ∧
      ((s.useAll own uses).val.channels own).events =
        (uses.foldl ChannelUse.after channel).events ∧
      (s.channelMap (fd own) = some own ∨ (∃ interest, .sets interest ∈ uses) →
        (s.useAll own uses).val.channelMap (fd own) = some own) := by
  induction uses generalizing s channel with
  | nil =>
      refine ⟨rfl, hs, hevents, fun hknown => ?_⟩
      rcases hknown with hknown | ⟨interest, hmem⟩
      · exact hknown
      · exact absurd hmem List.not_mem_nil
  | cons u uses ih =>
      have hrest : ∀ u' ∈ uses, u' ≠ .removes := fun u' hu' =>
        hkeeps u' (List.mem_cons_of_mem _ hu')
      cases u with
      | removes => exact absurd rfl (hkeeps .removes List.mem_cons_self)
      | closes state =>
          rcases ih hrest hs hevents with ⟨hok, hconsistent, hfold, hknown⟩
          refine ⟨hok, hconsistent, hfold, fun hset => hknown ?_⟩
          simpa using hset
      | sets interest =>
          rcases use_sets hinj hs interest hevents with ⟨hok, hconsistent, hset, hmap⟩
          rcases ih hrest hconsistent hset with ⟨hok', hconsistent', hfold, hknown⟩
          refine ⟨?_, hconsistent', hfold, fun _ => hknown (Or.inl hmap)⟩
          show ((s.use own (.sets interest)).ok && _) = true
          rw [hok]
          exact hok'

theorem plain_uses {channel : Channel} (h : PollPoller.Plain channel.events)
    (uses : List ChannelUse) : PollPoller.Plain (uses.foldl ChannelUse.after channel).events := by
  induction uses generalizing channel with
  | nil => exact h
  | cons u uses ih =>
      cases u with
      | sets interest => exact ih (PollPoller.plain_set h interest)
      | closes state => exact ih h
      | removes => exact ih h

namespace Hosted

variable {h h' : HostedConnection C} {label : HostLabel C}

omit [DecidableEq C] in
theorem create (pending : List UInt8) (hasWriteCompleteCb : Bool) :
    Hosted fd own (HostedConnection.create fd own pending hasWriteCompleteCb) where
  fresh := TcpConnection.fresh_create _ _ _
  flushing := (TcpConnection.unasked_create _ _ _).flushing
  plain := Or.inl rfl
  consistent := EpollPoller.consistent_create fd
  events := rfl
  known := fun hestablished => absurd hestablished (by
    simp [HostedConnection.create, TcpConnection.create, TcpConnection.established])

theorem conn {op : ConnOp} (hinj : Function.Injective fd) (hh : Hosted fd own h)
    (hstep : HostStep own h (.conn op) h') (hop : op ≠ .connectionDestroyed) :
    Hosted fd own h' := by
  rcases hstep with ⟨hconn, hpoller⟩
  have hval : h'.conn = (h.conn.applyTraced op).val := by
    rw [hconn.2, TcpConnection.val_applyTraced]
  have hchannel : h'.conn.channel =
      (h.conn.applyTraced op).events.foldl ChannelUse.after h.conn.channel := by
    rw [hval]
    exact TcpConnection.follows_applyTraced h.conn op
  rcases useAll_keeps hinj (TcpConnection.keepsChannel_applyTraced h.conn hop) hh.consistent
    hh.events with ⟨-, hconsistent, hevents, hknown⟩
  refine ⟨hh.fresh.step hconn, hh.flushing.step hh.fresh hconn, ?_, ?_, ?_, fun _ => ?_⟩
  · rw [hchannel]
    exact plain_uses hh.plain _
  · rw [hpoller]
    exact hconsistent
  · rw [hpoller, hchannel]
    exact hevents
  · rw [hpoller]
    refine hknown ?_
    by_cases hestablished : op = .connectionEstablished
    · subst hestablished
      exact Or.inr ⟨.enableRead, List.mem_cons_self⟩
    · exact Or.inl (hh.known (TcpConnection.established_of_allowed hconn.1 hestablished))

theorem other {op : PollerOp C} (hinj : Function.Injective fd) (hh : Hosted fd own h)
    (hstep : HostStep own h (.other op) h') : Hosted fd own h' := by
  rcases hstep with ⟨hne, hpoller, hconn⟩
  rcases EpollPoller.apply_succeeds hh.consistent hpoller.1 with ⟨-, x, watched, hval, -, -, -⟩
  have hchannels : h'.poller.channels own = h.poller.channels own := by
    rw [hpoller.2, hval]
    exact Function.update_of_ne hne.symm _ _
  have hmap : h'.poller.channelMap (fd own) = h.poller.channelMap (fd own) := by
    rw [hpoller.2, hval]
    refine Function.update_of_ne ?_ _ _
    rw [hh.consistent.fds]
    exact fun heq => hne (hinj heq).symm
  refine ⟨?_, ?_, ?_, hpoller.consistent hinj hh.consistent, ?_, ?_⟩
  · rw [hconn]
    exact hh.fresh
  · rw [hconn]
    exact hh.flushing
  · rw [hconn]
    exact hh.plain
  · rw [hconn, hchannels]
    exact hh.events
  · rw [hconn, hmap]
    exact hh.known

theorem of_run (hinj : Function.Injective fd) {pending : List UInt8} {hasWriteCompleteCb : Bool}
    {labels : List (HostLabel C)}
    (hrun : Run (HostStep own) (HostedConnection.create fd own pending hasWriteCompleteCb) labels
      h) (hdestroyed : .conn .connectionDestroyed ∉ labels) : Hosted fd own h := by
  induction hrun with
  | nil => exact Hosted.create pending hasWriteCompleteCb
  | @snoc labels t label u _ hstep ih =>
      rw [List.mem_append, not_or, List.mem_singleton] at hdestroyed
      have ht := ih hdestroyed.1
      cases label with
      | conn op =>
          refine ht.conn hinj hstep fun hop => hdestroyed.2 ?_
          rw [hop]
      | other op => exact ht.other hinj hstep

theorem remove_ok {s : EpollPoller C} (hs : EpollPoller.Consistent fd s)
    (hknown : s.channelMap (fd own) = some own)
    (hnone : (s.channels own).isNoneEvent = true) : (s.use own .removes).ok = true := by
  have hallowed : s.Allowed (.remove own) := by
    refine ⟨?_, hnone⟩
    rw [hs.fds, hknown]
    exact Option.some_ne_none own
  exact (EpollPoller.apply_succeeds hs hallowed).1

omit [DecidableEq C] in
theorem isNoneEvent_iff (hh : Hosted fd own h) (hdown : h.conn.state = .disconnected) :
    h.conn.channel.isNoneEvent = true ↔ h.conn.channel.isReading = false := by
  have hwriting := hh.flushing.down hdown
  have hplain := hh.plain
  rw [Channel.isWriting] at hwriting
  rw [Channel.isNoneEvent, Channel.isReading]
  rcases hplain with hevents | hevents | hevents | hevents <;> rw [hevents] at hwriting ⊢ <;>
    revert hwriting <;> decide

end Hosted

/-- Destroying an established connection tears it down completely if and only if it is CONNECTED, or
DISCONNECTED and has not been set to read again. -/
theorem tearsDown_iff (hinj : Function.Injective fd) {pending : List UInt8}
    {hasWriteCompleteCb : Bool} {labels : List (HostLabel C)} {h : HostedConnection C}
    (hrun : Run (HostStep own) (HostedConnection.create fd own pending hasWriteCompleteCb) labels
      h)
    (hdestroyed : .conn .connectionDestroyed ∉ labels) (hestablished : h.conn.established = true) :
    TearsDown own h ↔ h.conn.state = .connected ∨
      h.conn.state = .disconnected ∧ h.conn.channel.isReading = false := by
  have hh := Hosted.of_run hinj hrun hdestroyed
  have hknown := hh.known hestablished
  by_cases hconnected : h.conn.state = .connected
  · refine iff_of_true ⟨?_, ?_, ?_⟩ (Or.inl hconnected)
    · simp [TcpConnection.connectionDestroyed, hconnected, Channel.remove, TcpConnection.setState,
        TcpConnection.call, Channel.disableAll, Channel.isNoneEvent]
    · have huses : (h.conn.applyTraced .connectionDestroyed).events =
          [.sets .disableAll, .removes] := by
        show h.conn.connectionDestroyedTraced.events = _
        rw [TcpConnection.connectionDestroyedTraced_eq, if_pos hconnected]
        rfl
      rcases use_sets hinj hh.consistent .disableAll hh.events with ⟨hok, hs, hevents, hmap⟩
      have hremove := Hosted.remove_ok hs hmap (by
        rw [Channel.isNoneEvent, hevents]
        rfl)
      rw [huses]
      show ((h.poller.use own (.sets .disableAll)).ok && (_ && true)) = true
      rw [hok]
      simpa using hremove
    · simp [TcpConnection.connectionDestroyed, hconnected, TcpConnection.setState,
        TcpConnection.call, Channel.remove]
  · have hval : h.conn.connectionDestroyed.val = h.conn := by
      simp [TcpConnection.connectionDestroyed, Channel.remove, hconnected]
    have hok : h.conn.connectionDestroyed.ok = h.conn.channel.isNoneEvent := by
      simp [TcpConnection.connectionDestroyed, Channel.remove, hconnected]
    have huses : (h.conn.applyTraced .connectionDestroyed).events = [.removes] := by
      show h.conn.connectionDestroyedTraced.events = _
      rw [TcpConnection.connectionDestroyedTraced_eq, if_neg hconnected]
      rfl
    constructor
    · intro htears
      have hdown : h.conn.state = .disconnected := by
        have hstate := htears.state
        rwa [hval] at hstate
      have hnone := htears.channel
      rw [hok] at hnone
      exact Or.inr ⟨hdown, (hh.isNoneEvent_iff hdown).mp hnone⟩
    · intro hcases
      rcases hcases.resolve_left hconnected with ⟨hdown, hreading⟩
      have hnone := (hh.isNoneEvent_iff hdown).mpr hreading
      refine ⟨hok.trans hnone, ?_, ?_⟩
      · have hremove := Hosted.remove_ok hh.consistent hknown (by
          rw [Channel.isNoneEvent, hh.events]
          exact hnone)
        rw [huses]
        show ((h.poller.use own .removes).ok && true) = true
        simpa using hremove
      · rw [hval]
        exact hdown

section Examples

/-- The connection's channel, on descriptor 5, and no other. -/
def onlyFd (_c : Unit) : Int := 5

theorem onlyFd_injective : Function.Injective onlyFd := fun _ _ _ => rfl

/-- After an operation of the connection. -/
def perform (h : HostedConnection Unit) (op : ConnOp) : HostedConnection Unit :=
  ⟨(h.conn.apply op).val, (h.poller.useAll () (h.conn.applyTraced op).events).val⟩

theorem hostStep_perform (h : HostedConnection Unit) {op : ConnOp} (hop : h.conn.Allowed op) :
    HostStep () h (.conn op) (h.perform op) := ⟨⟨hop, rfl⟩, rfl⟩

def opened : HostedConnection Unit :=
  (HostedConnection.create onlyFd () [] false).perform .connectionEstablished

theorem opened_run : Run (HostStep ()) (HostedConnection.create onlyFd () [] false)
    [.conn .connectionEstablished] opened :=
  Run.single (hostStep_perform _ (by decide))

theorem tearsDown_closed : TearsDown () (opened.perform .handleClose) := by
  have hallowed : opened.conn.Allowed .handleClose := by decide
  have hrun := opened_run.snoc (hostStep_perform opened hallowed)
  exact (tearsDown_iff onlyFd_injective hrun (by simp) (by decide)).mpr
    (Or.inr ⟨by decide, by decide⟩)

/-- The server goes away while the connection is shutting down. -/
theorem shutdown_not_tearsDown : ∃ h,
    Run (HostStep ()) (HostedConnection.create onlyFd () [] false)
        [.conn .connectionEstablished, .conn (.shutdown_mt true)] h ∧
      h.conn.connectionDestroyed.ok = false ∧
      h.conn.connectionDestroyed.val.state = .connecting ∧ ¬ TearsDown () h := by
  have hrun := opened_run.snoc
    (hostStep_perform opened (by decide : opened.conn.Allowed (.shutdown_mt true)))
  have hstate : (opened.perform (.shutdown_mt true)).conn.connectionDestroyed.val.state =
      .connecting := by decide
  refine ⟨_, hrun, by decide, hstate, fun htears => ?_⟩
  rw [htears.state] at hstate
  exact absurd hstate (by decide)

end Examples

end HostedConnection

end LearnMuduo
