import LearnMuduo.Framework.RoundRobin
import LearnMuduo.Net.Server.Placement

/-!
# The loops share the connections

`getNextLoop` hands the loops of the pool out in turn, and whatever becomes of a connection it stays
where it was put. So the loops are dealt the connections round robin, in every run.
-/

namespace LearnMuduo

open Framework

namespace EventLoopThreadPool

variable {L : Type} {p : EventLoopThreadPool L}

theorem getNextLoop_fst (h : p.loops ≠ []) :
    some p.getNextLoop.val.1 = p.loops[p.next]? := by
  rw [getNextLoop, dif_neg h]
  exact (List.getElem?_eq_getElem (p.next_lt h)).symm

theorem getNextLoop_next (h : p.loops ≠ []) :
    p.getNextLoop.val.2.next = (p.next + 1) % p.loops.length := by
  have hlt := p.next_lt h
  rw [getNextLoop, dif_neg h]
  show (if p.loops.length ≤ p.next + 1 then 0 else p.next + 1) = _
  split
  · have hend : p.next + 1 = p.loops.length := by
      omega
    rw [hend, Nat.mod_self]
  · rw [Nat.mod_eq_of_lt (by omega)]

end EventLoopThreadPool

namespace TcpServer

variable {T L : Type} {env : ServerEnv T L} {s s' s'' : TcpServer T L} {i : Nat} {op : ConnOp}
  {t : T}

/-- The loops of the connections, in the order in which they were made. -/
def ioLoops (s : TcpServer T L) : List L := s.connections.map (·.ioLoop)

/-- No connection is made or moved. -/
structure Stays (s s' : TcpServer T L) : Prop where
  pool : s'.pool = s.pool
  ioLoops : s'.ioLoops = s.ioLoops

namespace Stays

theorem refl (s : TcpServer T L) : Stays s s := ⟨rfl, rfl⟩

theorem trans (h : Stays s s') (h' : Stays s' s'') : Stays s s'' :=
  ⟨h'.pool.trans h.pool, h'.ioLoops.trans h.ioLoops⟩

end Stays

theorem stays_setConn {c : ServerConnection L} (conn : TcpConnection)
    (h : s.connections[i]? = some c) : Stays s (s.setConn i c conn) where
  pool := rfl
  ioLoops := by
    apply List.ext_getElem?
    intro j
    rw [TcpServer.ioLoops, TcpServer.ioLoops, List.getElem?_map, List.getElem?_map]
    exact ioLoopOf_setConn h j

/-- The loops have been dealt out in turn, as often as connections were made. -/
structure Shared (loops : List L) (s : TcpServer T L) : Prop where
  pool : s.pool.loops = loops
  next : s.pool.next = s.ioLoops.length % loops.length
  order : s.ioLoops = dealt loops s.ioLoops.length

theorem Shared.stays {loops : List L} (hs : s.Shared loops) (h : Stays s s') : s'.Shared loops := by
  refine ⟨?_, ?_, ?_⟩
  · rw [h.pool]
    exact hs.pool
  · rw [h.pool, h.ioLoops]
    exact hs.next
  · rw [h.ioLoops]
    exact hs.order

theorem Shared.addConnection {loops : List L} (hne : loops ≠ []) (hs : s.Shared loops)
    (sockfd : Int) (pending : List UInt8) :
    (s.addConnection env sockfd pending).val.Shared loops := by
  have hpool : s.pool.loops ≠ [] := by
    rw [hs.pool]
    exact hne
  have hlist : (s.addConnection env sockfd pending).val.ioLoops =
      s.ioLoops ++ [s.pool.getNextLoop.val.1] := by
    simp [TcpServer.ioLoops, TcpServer.addConnection]
  have hloop := EventLoopThreadPool.getNextLoop_fst hpool
  rw [hs.pool, hs.next] at hloop
  refine ⟨s.pool.getNextLoop_loops.1.trans hs.pool, ?_, ?_⟩
  · have hnext := EventLoopThreadPool.getNextLoop_next hpool
    rw [hs.pool, hs.next] at hnext
    rw [hlist, List.length_append, List.length_singleton, ← Nat.mod_add_mod]
    exact hnext
  · rw [hlist, List.length_append, List.length_singleton, dealt_succ, ← hloop, ← hs.order]
    rfl

section Steps

variable [DecidableEq L]

theorem stays_queueTask (s : TcpServer T L) (l : L) (task : ServerTask) :
    Stays s (s.queueTask l task) := ⟨rfl, rfl⟩

variable [DecidableEq T]

theorem stays_removeConnectionInLoop (s : TcpServer T L) (i : Nat) (t : T) :
    Stays s (s.removeConnectionInLoop env i t).val := by
  rw [removeConnectionInLoop]
  split
  · cases s.connections[i]? with
    | none => exact Stays.refl s
    | some c => exact ⟨rfl, rfl⟩
  · exact ⟨rfl, rfl⟩

theorem stays_removeConnection (s : TcpServer T L) (i : Nat) (t : T) :
    Stays s (s.removeConnection env i t).val := by
  rw [removeConnection]
  split
  · exact stays_removeConnectionInLoop s i t
  · exact stays_queueTask _ _ _

theorem stays_perform (s : TcpServer T L) (i : Nat) (op : ConnOp) (t : T) :
    Stays s (s.perform env i op t).val := by
  rw [perform]
  cases hc : s.connections[i]? with
  | none => exact Stays.refl s
  | some c =>
      have hrecord : Stays s (s.record i op t) := ⟨rfl, rfl⟩
      have hset := hrecord.trans (stays_setConn (c.conn.apply op).val hc)
      dsimp only
      split
      · exact ⟨rfl, rfl⟩
      · simp only [Checked.val_bind]
        split
        · split
          · exact hset.trans (stays_removeConnection _ i t)
          · exact hset.trans ⟨rfl, rfl⟩
        · exact hset

theorem stays_performInLoop (s : TcpServer T L) (i : Nat) (op : ConnOp) :
    Stays s (s.performInLoop env i op).val := by
  rw [performInLoop]
  cases s.connections[i]? with
  | none => exact Stays.refl s
  | some c => exact stays_perform s i op _

theorem stays_userCall (s : TcpServer T L) (i : Nat) (t : T) (call : UserCall) :
    Stays s (s.userCall env i t call).val := by
  rw [userCall]
  cases s.connections[i]? with
  | none => exact Stays.refl s
  | some c => exact stays_perform s i _ t

theorem stays_post {l : L} {task : ServerTask} :
    Stays s (if t = env.threadId l then s.perform env i op t
      else pure (s.queueTask l task)).val := by
  split
  · exact stays_perform s i op t
  · exact stays_queueTask s l task

theorem stays_send_mt (s : TcpServer T L) (i : Nat) (t : T) (message : Memory)
    (result : WriteResult) : Stays s (s.send_mt env i t message result).val := by
  rw [send_mt]
  cases s.connections[i]? with
  | none => exact Stays.refl s
  | some c =>
      dsimp only
      split
      · exact stays_post
      · exact Stays.refl s

theorem stays_postDestroyed (s : TcpServer T L) (i : Nat) (t : T) :
    Stays s (s.postDestroyed env i t).val := by
  rw [postDestroyed]
  cases s.connections[i]? with
  | none => exact Stays.refl s
  | some c => exact stays_post

theorem stays_destroy (s : TcpServer T L) (order : List (Sigma fun _ : List Char => Nat)) (t : T) :
    Stays s (s.destroy env order t).val := by
  have hfold : ∀ s : TcpServer T L, Stays s (order.foldlM
      (fun (s : TcpServer T L) entry => s.postDestroyed env entry.2 t) s).val := by
    induction order with
    | nil => exact Stays.refl
    | cons entry order ih =>
        intro s
        rw [List.foldlM_cons, Checked.val_bind]
        exact (stays_postDestroyed s entry.2 t).trans (ih _)
  rw [destroy]
  split
  · exact (hfold s).trans ⟨rfl, rfl⟩
  · exact ⟨rfl, rfl⟩

theorem stays_runTask (s : TcpServer T L) (l : L) (result : WriteResult) :
    Stays s (s.runTask env l result).val := by
  rw [runTask]
  cases s.queues l with
  | nil => exact Stays.refl s
  | cons task tasks =>
      have htaken : Stays s { s with queues := Function.update s.queues l tasks } := ⟨rfl, rfl⟩
      cases task with
      | removeConnectionInLoop i => exact htaken.trans (stays_removeConnectionInLoop _ i _)
      | connectionDestroyed i => exact htaken.trans (stays_perform _ i _ _)
      | sendInLoop i message => exact htaken.trans (stays_perform _ i _ _)

theorem Shared.newConnection {loops : List L} (hne : loops ≠ []) (hs : s.Shared loops)
    (sockfd : Int) (pending : List UInt8) (t : T) :
    (s.newConnection env sockfd pending t).val.Shared loops := by
  rw [TcpServer.newConnection]
  split
  · exact (hs.addConnection hne sockfd pending).stays (stays_perform _ _ _ t)
  · exact hs.stays ⟨rfl, rfl⟩

end Steps

end TcpServer

section Runs

variable {T L : Type} [DecidableEq T] [DecidableEq L] {env : ServerEnv T L} {s s' : TcpServer T L}
  {e : ServerLabel T L} {es : List (ServerLabel T L)} {serverName : List Char} {baseLoop : L}
  {loops : List L} {hasWriteCompleteCb : Bool}

open TcpServer

theorem ServerStep.shared (hne : loops ≠ []) (h : ServerStep env s e s') (hs : s.Shared loops) :
    s'.Shared loops := by
  rcases h with ⟨-, -, rfl⟩
  cases e with
  | accept sockfd pending => exact hs.newConnection hne sockfd pending _
  | handle i op => exact hs.stays (stays_performInLoop s i op)
  | runConnTask i => exact hs.stays (stays_performInLoop s i .runTask)
  | call i t call => exact hs.stays (stays_userCall s i t call)
  | send_mt i t message result => exact hs.stays (stays_send_mt s i t message result)
  | runTask l result => exact hs.stays (stays_runTask s l result)
  | destroy order t => exact hs.stays (stays_destroy s order t)

/-- In every run the loops of the pool, which are distinct, have been dealt the connections in turn:
of `k` connections on `n` loops each loop has `k / n`, and the first `k % n` loops one more. -/
theorem shares_of_run (hne : loops ≠ []) (hnodup : loops.Nodup)
    (h : Run (ServerStep env)
      (create serverName (EventLoopThreadPool.ofLoops baseLoop loops) hasWriteCompleteCb) es s) :
    s.ioLoops = dealt loops s.connections.length ∧
      ∀ j (hj : j < loops.length), s.ioLoops.count loops[j] =
        s.connections.length / loops.length +
          if j < s.connections.length % loops.length then 1 else 0 := by
  have hs : s.Shared loops :=
    h.invariant (fun _ _ _ hs hstep => ServerStep.shared hne hstep hs)
      ⟨rfl, (Nat.zero_mod _).symm, rfl⟩
  have horder := hs.order
  rw [ioLoops, List.length_map] at horder
  refine ⟨horder, fun j hj => ?_⟩
  rw [ioLoops, horder]
  exact count_dealt hnodup hj _

theorem shares_of_run_three : ∃ s : TcpServer Nat Nat,
    Run (ServerStep (ServerEnv.code id false))
      (create ['s'] (EventLoopThreadPool.ofLoops 0 [1, 2]) false)
      [.accept 5 [], .accept 6 [], .accept 7 []] s ∧ s.ioLoops = [1, 2, 1] ∧
    s.ioLoops.count 1 = 2 := by
  have hstep : ∀ (s : TcpServer Nat Nat) (sockfd : Int), s.aborted = false → s.alive = true →
      ServerStep (.code id false) s (.accept sockfd []) _ :=
    fun _ _ haborted halive => ⟨haborted, halive, rfl⟩
  have hrun := ((Run.nil.snoc (hstep (create ['s'] (.ofLoops 0 [1, 2]) false) 5 rfl rfl)).snoc
    (hstep _ 6 rfl rfl)).snoc (hstep _ 7 rfl rfl)
  exact ⟨_, hrun, rfl, (shares_of_run (by decide) (by decide) hrun).2 0 (by decide)⟩

end Runs

end LearnMuduo
