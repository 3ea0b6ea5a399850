import LearnMuduo.Net.Server.TcpServer

/-!
# The threads of a server's connections

Each operation that belongs to the loop of a connection is to be executed on the thread of that
loop. The tasks are: they are queued where they belong. `connectionEstablished` is not a task: it is
called by `newConnection`, on the thread of the base loop.
-/

namespace LearnMuduo

open Framework

namespace TcpServer

variable {T L : Type} {env : ServerEnv T L} {s s' s'' : TcpServer T L} {i : Nat} {op : ConnOp}
  {t : T}

/-- `conn->getLoop()` -/
def ioLoopOf (s : TcpServer T L) (i : Nat) : Option L := s.connections[i]?.map (·.ioLoop)

def OnOwner (env : ServerEnv T L) (s : TcpServer T L) (e : Executed T) : Prop :=
  ∃ l, s.ioLoopOf e.conn = some l ∧ e.thread = env.threadId l

/-- What belongs to a loop was executed on its owner. -/
def Confined (env : ServerEnv T L) (s : TcpServer T L) : Prop :=
  ∀ e ∈ s.executed, e.op.inLoop = true → s.OnOwner env e

/-- `connectionEstablished`, as `newConnection` calls it. -/
def OnBase (env : ServerEnv T L) (s : TcpServer T L) (e : Executed T) : Prop :=
  e.op = .connectionEstablished ∧ e.thread = env.threadId s.pool.baseLoop ∧
    ∃ l, s.ioLoopOf e.conn = some l

def Settled (env : ServerEnv T L) (s : TcpServer T L) (e : Executed T) : Prop :=
  e.op.inLoop = true → s.OnBase env e ∨ s.OnOwner env e

/-- The task belongs to the loop `l`. -/
def Homed (s : TcpServer T L) (l : L) : ServerTask → Prop
  | .removeConnectionInLoop _ => l = s.pool.baseLoop
  | .connectionDestroyed i => s.ioLoopOf i = some l
  | .sendInLoop i _ => s.ioLoopOf i = some l

/-- A loop that `getNextLoop` hands out. -/
def Served (s : TcpServer T L) (l : L) : Prop :=
  if s.pool.loops = [] then l = s.pool.baseLoop else l ∈ s.pool.loops

structure Placed (env : ServerEnv T L) (s : TcpServer T L) : Prop where
  executed : ∀ e ∈ s.executed, s.Settled env e
  queued : ∀ l, ∀ task ∈ s.queues l, s.Homed l task
  served : ∀ i l, s.ioLoopOf i = some l → s.Served l

/-- From `s` to `s'` connections keep their loops, and what is new is in its place. -/
structure Carries (env : ServerEnv T L) (s s' : TcpServer T L) : Prop where
  loops : s'.pool.loops = s.pool.loops
  baseLoop : s'.pool.baseLoop = s.pool.baseLoop
  lives : s'.alive = true → s.alive = true
  kept : ∀ i l, s.ioLoopOf i = some l → s'.ioLoopOf i = some l
  made : ∀ i l, s'.ioLoopOf i = some l → s.ioLoopOf i = some l ∨ s'.Served l
  logged : s.executed ⊆ s'.executed
  executed : ∀ e ∈ s'.executed, e ∈ s.executed ∨ s'.Settled env e
  queued : ∀ l, ∀ task ∈ s'.queues l, task ∈ s.queues l ∨ s'.Homed l task

namespace Carries

theorem settled (h : Carries env s s') {e : Executed T} (he : s.Settled env e) :
    s'.Settled env e := by
  intro hop
  rcases he hop with ⟨hestablished, hthread, l, hl⟩ | ⟨l, hl, hthread⟩
  · exact Or.inl ⟨hestablished, h.baseLoop ▸ hthread, l, h.kept _ _ hl⟩
  · exact Or.inr ⟨l, h.kept _ _ hl, hthread⟩

theorem homed (h : Carries env s s') {l : L} {task : ServerTask} (htask : s.Homed l task) :
    s'.Homed l task := by
  cases task with
  | removeConnectionInLoop _ => exact Eq.trans htask h.baseLoop.symm
  | connectionDestroyed i => exact h.kept i l htask
  | sendInLoop i _ => exact h.kept i l htask

theorem serves (h : Carries env s s') {l : L} (hl : s.Served l) : s'.Served l := by
  rw [Served, h.loops, h.baseLoop]
  exact hl

theorem of_eq (hpool : s'.pool = s.pool) (hlives : s'.alive = true → s.alive = true)
    (hloop : ∀ i, s'.ioLoopOf i = s.ioLoopOf i)
    (hexecuted : s'.executed = s.executed) (hqueues : s'.queues = s.queues) :
    Carries env s s' where
  loops := by rw [hpool]
  baseLoop := by rw [hpool]
  lives := hlives
  kept := fun i l hl => (hloop i).trans hl
  made := fun i l hl => Or.inl ((hloop i).symm.trans hl)
  logged := by rw [hexecuted]; exact List.Subset.refl _
  executed := fun e he => Or.inl (hexecuted ▸ he)
  queued := fun l task htask => Or.inl (hqueues ▸ htask)

theorem refl (s : TcpServer T L) : Carries env s s := of_eq rfl id (fun _ => rfl) rfl rfl

theorem trans (h : Carries env s s') (h' : Carries env s' s'') : Carries env s s'' where
  loops := h'.loops.trans h.loops
  baseLoop := h'.baseLoop.trans h.baseLoop
  lives := fun halive => h.lives (h'.lives halive)
  kept := fun i l hl => h'.kept i l (h.kept i l hl)
  made := by
    intro i l hl
    rcases h'.made i l hl with hold | hserved
    · rcases h.made i l hold with hold | hserved
      · exact Or.inl hold
      · exact Or.inr (h'.serves hserved)
    · exact Or.inr hserved
  logged := List.Subset.trans h.logged h'.logged
  executed := by
    intro e he
    rcases h'.executed e he with he | hsettled
    · rcases h.executed e he with he | hsettled
      · exact Or.inl he
      · exact Or.inr (h'.settled hsettled)
    · exact Or.inr hsettled
  queued := by
    intro l task htask
    rcases h'.queued l task htask with htask | hhomed
    · rcases h.queued l task htask with htask | hhomed
      · exact Or.inl htask
      · exact Or.inr (h'.homed hhomed)
    · exact Or.inr hhomed

theorem placed (h : Carries env s s') (hs : s.Placed env) : s'.Placed env where
  executed := by
    intro e he
    rcases h.executed e he with he | hsettled
    · exact h.settled (hs.executed e he)
    · exact hsettled
  queued := by
    intro l task htask
    rcases h.queued l task htask with htask | hhomed
    · exact h.homed (hs.queued l task htask)
    · exact hhomed
  served := by
    intro i l hl
    rcases h.made i l hl with hl | hserved
    · exact h.serves (hs.served i l hl)
    · exact hserved

end Carries

theorem ioLoopOf_of_getElem? {c : ServerConnection L} (h : s.connections[i]? = some c) :
    s.ioLoopOf i = some c.ioLoop := by
  rw [ioLoopOf, h]
  rfl

theorem ioLoopOf_setConn {c : ServerConnection L} {conn : TcpConnection}
    (h : s.connections[i]? = some c) (j : Nat) :
    (s.setConn i c conn).ioLoopOf j = s.ioLoopOf j := by
  rw [ioLoopOf, ioLoopOf, setConn]
  by_cases hj : i = j
  · subst hj
    have hlt : i < s.connections.length := (List.getElem?_eq_some_iff.mp h).1
    rw [List.getElem?_set_self hlt, h]
    rfl
  · rw [List.getElem?_set_ne hj]

theorem carries_abort (s : TcpServer T L) : Carries env s s.abort :=
  Carries.of_eq rfl id (fun _ => rfl) rfl rfl

theorem carries_setConn {c : ServerConnection L} {conn : TcpConnection}
    (h : s.connections[i]? = some c) : Carries env s (s.setConn i c conn) :=
  Carries.of_eq rfl id (ioLoopOf_setConn h) rfl rfl

theorem carries_record (h : s.Settled env ⟨i, op, t⟩) : Carries env s (s.record i op t) where
  loops := rfl
  baseLoop := rfl
  lives := id
  kept := fun _ _ hl => hl
  made := fun _ _ hl => Or.inl hl
  logged := List.subset_append_left _ _
  executed := by
    intro e he
    rcases List.mem_append.mp he with he | he
    · exact Or.inl he
    · rw [List.mem_singleton.mp he]
      exact Or.inr h
  queued := fun _ _ htask => Or.inl htask

theorem ioLoopOf_addConnection (s : TcpServer T L) (sockfd : Int) (pending : List UInt8) (j : Nat) :
    (s.addConnection env sockfd pending).val.ioLoopOf j =
      if j = s.connections.length then some s.pool.getNextLoop.val.1 else s.ioLoopOf j := by
  have hconnections : (s.addConnection env sockfd pending).val.ioLoopOf j =
      (s.connections ++ [_])[j]?.map (·.ioLoop) := rfl
  rw [hconnections, ioLoopOf]
  by_cases hj : j = s.connections.length
  · rw [if_pos hj, hj, List.getElem?_concat_length]
    rfl
  · rw [if_neg hj]
    by_cases hlt : j < s.connections.length
    · rw [List.getElem?_append_left hlt]
    · rw [List.getElem?_eq_none (by simp; omega), List.getElem?_eq_none (by omega)]

theorem served_getNextLoop (s : TcpServer T L) (sockfd : Int) (pending : List UInt8) :
    (s.addConnection env sockfd pending).val.Served s.pool.getNextLoop.val.1 := by
  have hloops := s.pool.getNextLoop_loops
  show if s.pool.getNextLoop.val.2.loops = [] then _ = s.pool.getNextLoop.val.2.baseLoop
    else _ ∈ s.pool.getNextLoop.val.2.loops
  rw [hloops.1, hloops.2]
  split
  · rename_i hnil
    rw [EventLoopThreadPool.getNextLoop_of_nil hnil]
  · rename_i hne
    exact EventLoopThreadPool.getNextLoop_mem hne

theorem carries_addConnection (env : ServerEnv T L) (s : TcpServer T L) (sockfd : Int)
    (pending : List UInt8) :
    Carries env s (s.addConnection env sockfd pending).val where
  loops := s.pool.getNextLoop_loops.1
  baseLoop := s.pool.getNextLoop_loops.2
  lives := id
  kept := by
    intro j l hl
    have hj : j ≠ s.connections.length := by
      intro hj
      rw [ioLoopOf, hj, List.getElem?_eq_none (Nat.le_refl _)] at hl
      cases hl
    rw [ioLoopOf_addConnection, if_neg hj]
    exact hl
  made := by
    intro j l hl
    rw [ioLoopOf_addConnection] at hl
    split at hl
    · rw [← Option.some.inj hl]
      exact Or.inr (served_getNextLoop s sockfd pending)
    · exact Or.inl hl
  logged := List.Subset.refl _
  executed := fun _ he => Or.inl he
  queued := fun _ _ htask => Or.inl htask

/-- Nothing was accepted. -/
structure Vacant (s : TcpServer T L) : Prop where
  connections : s.connections = []
  queues : ∀ l, s.queues l = []
  entries : s.connectionMap.entries = []
  executed : s.executed = []

theorem Vacant.not_allows (h : s.Vacant) {i : Nat} {op : ConnOp} : ¬ s.Allows i op := by
  intro hallows
  rcases hallows with ⟨c, hc, -⟩
  rw [h.connections, List.getElem?_nil] at hc
  cases hc

section Steps

variable [DecidableEq L]

theorem carries_queueTask {l : L} {task : ServerTask} (h : s.Homed l task) :
    Carries env s (s.queueTask l task) where
  loops := rfl
  baseLoop := rfl
  lives := id
  kept := fun _ _ hl => hl
  made := fun _ _ hl => Or.inl hl
  logged := List.Subset.refl _
  executed := fun _ he => Or.inl he
  queued := by
    intro l' task' htask
    by_cases hl : l' = l
    · subst hl
      simp only [queueTask, Function.update_self] at htask
      rcases List.mem_append.mp htask with htask | htask
      · exact Or.inl htask
      · rw [List.mem_singleton.mp htask]
        exact Or.inr h
    · simp only [queueTask, Function.update_of_ne hl] at htask
      exact Or.inl htask

variable [DecidableEq T]

theorem carries_removeConnectionInLoop (s : TcpServer T L) (i : Nat) (t : T) :
    Carries env s (s.removeConnectionInLoop env i t).val := by
  rw [removeConnectionInLoop]
  split
  · cases hc : s.connections[i]? with
    | none => exact Carries.refl s
    | some c =>
        have herase : Carries env s { s with connectionMap := s.connectionMap.erase c.connName } :=
          Carries.of_eq rfl id (fun _ => rfl) rfl rfl
        exact herase.trans (carries_queueTask (ioLoopOf_of_getElem? hc))
  · exact carries_abort s

theorem carries_removeConnection (s : TcpServer T L) (i : Nat) (t : T) :
    Carries env s (s.removeConnection env i t).val := by
  rw [removeConnection]
  split
  · exact carries_removeConnectionInLoop s i t
  · exact carries_queueTask rfl

theorem carries_perform
    (h : ∀ l, s.ioLoopOf i = some l → op.inLoop = true →
      (op = .connectionEstablished ∧ t = env.threadId s.pool.baseLoop) ∨ t = env.threadId l) :
    Carries env s (s.perform env i op t).val := by
  rw [perform]
  cases hc : s.connections[i]? with
  | none => exact Carries.refl s
  | some c =>
      have hloop := ioLoopOf_of_getElem? hc
      have hrecord : Carries env s (s.record i op t) := by
        refine carries_record fun hop => ?_
        rcases h c.ioLoop hloop hop with ⟨hestablished, hthread⟩ | hthread
        · exact Or.inl ⟨hestablished, hthread, c.ioLoop, hloop⟩
        · exact Or.inr ⟨c.ioLoop, hloop, hthread⟩
      have hset : Carries env s
          ((s.record i op t).setConn i c (c.conn.apply op).val) :=
        hrecord.trans (carries_setConn hc)
      dsimp only
      split
      · exact hrecord.trans (carries_abort _)
      · simp only [Checked.val_bind]
        split
        · split
          · exact hset.trans (carries_removeConnection _ i t)
          · exact hset.trans (Carries.of_eq rfl id (fun _ => rfl) rfl rfl)
        · exact hset

theorem mem_executed_perform {c : ServerConnection L} (hc : s.connections[i]? = some c) :
    ⟨i, op, t⟩ ∈ (s.perform env i op t).val.executed := by
  have hrecord : ⟨i, op, t⟩ ∈ (s.record i op t).executed :=
    List.mem_append_right _ (List.mem_singleton.mpr rfl)
  rw [perform, hc]
  dsimp only
  split
  · exact hrecord
  · simp only [Checked.val_bind]
    split
    · split
      · exact (carries_removeConnection _ i t).logged hrecord
      · exact hrecord
    · exact hrecord

theorem carries_newConnection (s : TcpServer T L) (sockfd : Int) (pending : List UInt8) :
    Carries env s (s.newConnection env sockfd pending (env.threadId s.pool.baseLoop)).val := by
  have hadd := carries_addConnection env s sockfd pending
  rw [newConnection]
  split
  · refine hadd.trans (carries_perform fun _ _ _ => Or.inl ⟨rfl, ?_⟩)
    rw [hadd.baseLoop]
  · exact carries_abort s

theorem carries_perform_owner {l : L} (hl : s.ioLoopOf i = some l) :
    Carries env s (s.perform env i op (env.threadId l)).val := by
  refine carries_perform fun l' hl' _ => Or.inr ?_
  rw [Option.some.inj (hl.symm.trans hl')]

theorem carries_performInLoop (s : TcpServer T L) (i : Nat) (op : ConnOp) :
    Carries env s (s.performInLoop env i op).val := by
  rw [performInLoop]
  cases hc : s.connections[i]? with
  | none => exact Carries.refl s
  | some c => exact carries_perform_owner (ioLoopOf_of_getElem? hc)

theorem carries_userCall (s : TcpServer T L) (i : Nat) (t : T) (call : UserCall) :
    Carries env s (s.userCall env i t call).val := by
  rw [userCall]
  cases s.connections[i]? with
  | none => exact Carries.refl s
  | some c =>
      refine carries_perform fun _ _ hop => ?_
      cases call <;> exact absurd hop Bool.false_ne_true

theorem carries_post {l : L} {task : ServerTask} (hl : s.ioLoopOf i = some l)
    (htask : s.Homed l task) :
    Carries env s (if t = env.threadId l then s.perform env i op t
      else pure (s.queueTask l task)).val := by
  split
  · rename_i hthread
    rw [hthread]
    exact carries_perform_owner hl
  · exact carries_queueTask htask

theorem carries_send_mt (s : TcpServer T L) (i : Nat) (t : T) (message : Memory)
    (result : WriteResult) : Carries env s (s.send_mt env i t message result).val := by
  rw [send_mt]
  cases hc : s.connections[i]? with
  | none => exact Carries.refl s
  | some c =>
      have hloop := ioLoopOf_of_getElem? hc
      dsimp only
      split
      · exact carries_post hloop hloop
      · exact Carries.refl s

theorem carries_postDestroyed (s : TcpServer T L) (i : Nat) (t : T) :
    Carries env s (s.postDestroyed env i t).val := by
  rw [postDestroyed]
  cases hc : s.connections[i]? with
  | none => exact Carries.refl s
  | some c =>
      have hloop := ioLoopOf_of_getElem? hc
      exact carries_post hloop hloop

theorem carries_foldlM_postDestroyed (order : List (Sigma fun _ : List Char => Nat))
    (s : TcpServer T L) (t : T) :
    Carries env s (order.foldlM
      (fun (s : TcpServer T L) entry => s.postDestroyed env entry.2 t) s).val := by
  induction order generalizing s with
  | nil => exact Carries.refl s
  | cons entry order ih =>
      rw [List.foldlM_cons, Checked.val_bind]
      exact (carries_postDestroyed s entry.2 t).trans (ih _)

theorem carries_destroy (s : TcpServer T L) (order : List (Sigma fun _ : List Char => Nat))
    (t : T) :
    Carries env s (s.destroy env order t).val := by
  rw [destroy]
  split
  · refine (carries_foldlM_postDestroyed order s t).trans
      (Carries.of_eq rfl (fun halive => ?_) (fun _ => rfl) rfl rfl)
    exact absurd halive Bool.false_ne_true
  · exact carries_abort s

theorem carries_runTask (hs : s.Placed env) (l : L) (result : WriteResult) :
    Carries env s (s.runTask env l result).val := by
  rw [runTask]
  cases hqueue : s.queues l with
  | nil => exact Carries.refl s
  | cons task tasks =>
      have hhomed : s.Homed l task := hs.queued l task (hqueue ▸ List.mem_cons_self)
      have htaken : Carries env s { s with queues := Function.update s.queues l tasks } := by
        refine ⟨rfl, rfl, id, fun _ _ hl => hl, fun _ _ hl => Or.inl hl, List.Subset.refl _,
          fun _ he => Or.inl he, fun l' task' htask => Or.inl ?_⟩
        by_cases hl : l' = l
        · subst hl
          simp only [Function.update_self] at htask
          rw [hqueue]
          exact List.mem_cons_of_mem _ htask
        · simpa only [Function.update_of_ne hl] using htask
      cases task with
      | removeConnectionInLoop i => exact htaken.trans (carries_removeConnectionInLoop _ i _)
      | connectionDestroyed i => exact htaken.trans (carries_perform_owner hhomed)
      | sendInLoop i message => exact htaken.trans (carries_perform_owner hhomed)

end Steps

theorem placed_create {serverName : List Char} {pool : EventLoopThreadPool L}
    {hasWriteCompleteCb : Bool} :
    (create serverName pool hasWriteCompleteCb : TcpServer T L).Placed env where
  executed := fun _ he => absurd he List.not_mem_nil
  queued := fun _ _ htask => absurd htask List.not_mem_nil
  served := fun _ _ hl => absurd hl.symm (Option.some_ne_none _)

end TcpServer

section Runs

variable {T L : Type} [DecidableEq T] [DecidableEq L] {env : ServerEnv T L} {s s' : TcpServer T L}
  {e : ServerLabel T L} {es : List (ServerLabel T L)} {serverName : List Char}
  {pool : EventLoopThreadPool L} {hasWriteCompleteCb : Bool}

open TcpServer

theorem ServerStep.carries (h : ServerStep env s e s') (hs : s.Placed env) :
    Carries env s s' := by
  rcases h with ⟨-, -, hs'⟩
  subst hs'
  cases e with
  | accept sockfd pending => exact carries_newConnection s sockfd pending
  | handle i op => exact carries_performInLoop s i op
  | runConnTask i => exact carries_performInLoop s i .runTask
  | call i t call => exact carries_userCall s i t call
  | send_mt i t message result => exact carries_send_mt s i t message result
  | runTask l result => exact carries_runTask hs l result
  | destroy order t => exact carries_destroy s order t

theorem ServerStep.placed (h : ServerStep env s e s') (hs : s.Placed env) : s'.Placed env :=
  (h.carries hs).placed hs

theorem placed_of_run (h : Run (ServerStep env) (create serverName pool hasWriteCompleteCb) es s) :
    s.Placed env ∧ s.pool.loops = pool.loops ∧ s.pool.baseLoop = pool.baseLoop := by
  induction h with
  | nil => exact ⟨placed_create, rfl, rfl⟩
  | snoc _ hstep ih =>
      rcases ih with ⟨hplaced, hloops, hbase⟩
      have hcarries := hstep.carries hplaced
      exact ⟨hcarries.placed hplaced, hcarries.loops.trans hloops, hcarries.baseLoop.trans hbase⟩

/-- Only `connectionEstablished` is ever executed away from its loop. -/
theorem onOwner_or_established
    (h : Run (ServerStep env) (create serverName pool hasWriteCompleteCb) es s)
    {x : Executed T} (hx : x ∈ s.executed) (hop : x.op.inLoop = true) :
    s.OnOwner env x ∨ x.op = .connectionEstablished := by
  rcases (placed_of_run h).1.executed x hx hop with ⟨hestablished, -⟩ | howner
  · exact Or.inr hestablished
  · exact Or.inl howner

theorem ServerStep.mem_executed_accept (h : ServerStep env s e s') (he : e.isAccept = true) :
    ⟨s.connections.length, .connectionEstablished, env.threadId s.pool.baseLoop⟩ ∈ s'.executed := by
  rcases h with ⟨-, -, hs'⟩
  subst hs'
  cases e with
  | accept sockfd pending =>
      have hadded : (s.addConnection env sockfd pending).val.connections[s.connections.length]? =
          some _ := List.getElem?_concat_length
      show _ ∈ (s.newConnection env sockfd pending (env.threadId s.pool.baseLoop)).val.executed
      rw [newConnection, if_pos (env.passes_threadId _)]
      exact mem_executed_perform hadded
  | _ => exact absurd he Bool.false_ne_true

theorem ServerStep.vacant (h : ServerStep env s e s') (he : e.isAccept = false) (hs : s.Vacant) :
    s'.Vacant := by
  rcases h with ⟨-, henabled, hs'⟩
  subst hs'
  cases e with
  | accept sockfd pending => exact absurd he.symm Bool.false_ne_true
  | handle i op => exact absurd henabled.2 hs.not_allows
  | runConnTask i => exact absurd henabled hs.not_allows
  | call i t call => exact absurd henabled hs.not_allows
  | send_mt i t message result => exact absurd henabled hs.not_allows
  | runTask l result =>
      rcases henabled with ⟨task, htask, -⟩
      rw [hs.queues l] at htask
      cases htask
  | destroy order t =>
      have horder : order = [] := List.Perm.eq_nil (hs.entries ▸ henabled.2)
      show (s.destroy env order t).val.Vacant
      rw [destroy, horder]
      split
      · exact ⟨hs.connections, hs.queues, rfl, hs.executed⟩
      · exact ⟨hs.connections, hs.queues, hs.entries, hs.executed⟩

theorem vacant_of_run (h : Run (ServerStep env) (create serverName pool hasWriteCompleteCb) es s)
    (hes : ∀ e ∈ es, e.isAccept = false) : s.Vacant := by
  induction h with
  | nil => exact ⟨rfl, fun _ => rfl, rfl, rfl⟩
  | @snoc es s e s' _ hstep ih =>
      have hinit : s.Vacant := ih fun e he => hes e (List.mem_append_left _ he)
      exact hstep.vacant (hes e (List.mem_append_right _ List.mem_cons_self)) hinit

theorem executed_mono (h : Run (ServerStep env) s es s') (hs : s.Placed env) :
    s.executed ⊆ s'.executed := by
  induction h with
  | nil => exact List.Subset.refl _
  | snoc hrun hstep ih =>
      have hplaced := hrun.invariant (fun _ _ _ hs hstep => hstep.placed hs) hs
      exact List.Subset.trans ih (hstep.carries hplaced).logged

theorem confined_of_nil (h : Run (ServerStep env) (create serverName pool hasWriteCompleteCb) es s)
    (hnil : pool.loops = []) : s.Confined env := by
  rcases placed_of_run h with ⟨hplaced, hloops, -⟩
  intro x hx hop
  rcases hplaced.executed x hx hop with ⟨-, hthread, l, hl⟩ | howner
  · have hserved := hplaced.served x.conn l hl
    rw [Served, if_pos (hloops.trans hnil)] at hserved
    exact ⟨l, hl, hserved ▸ hthread⟩
  · exact howner

/-- The operations of connections are confined to their loops in exactly those runs in which there
are no loops but the base loop, or no connections. -/
theorem serverConfined_iff (hown : ∀ l ∈ pool.loops, env.threadId l ≠ env.threadId pool.baseLoop)
    (h : Run (ServerStep env) (create serverName pool hasWriteCompleteCb) es s) :
    s.Confined env ↔ pool.loops = [] ∨ ∀ e ∈ es, e.isAccept = false := by
  constructor
  · intro hconfined
    by_contra hnot
    rcases not_or.mp hnot with ⟨hloops, hsome⟩
    rcases not_forall.mp hsome with ⟨e, he⟩
    rcases Classical.not_imp.mp he with ⟨he, haccept⟩
    rcases h.exists_step_of_mem he with ⟨_, _, v, w, -, hbefore, hstep, hafter⟩
    rcases placed_of_run hbefore with ⟨hv, -, hbase⟩
    have hx := executed_mono hafter (hstep.placed hv)
      (hstep.mem_executed_accept (Bool.eq_true_of_not_eq_false haccept))
    rcases hconfined _ hx rfl with ⟨l, hl, hthread⟩
    rcases placed_of_run h with ⟨hplaced, hsame, -⟩
    have hserved := hplaced.served _ l hl
    rw [Served, hsame, if_neg hloops] at hserved
    rw [hbase] at hthread
    exact hown l hserved hthread.symm
  · intro hor
    rcases hor with hnil | hnone
    · exact confined_of_nil h hnil
    · intro x hx
      rw [(vacant_of_run h hnone).executed] at hx
      exact absurd hx List.not_mem_nil

/-- One loop besides the base loop, and one connection: thread 0 establishes it for the loop of
thread 1, and is aborted. -/
theorem established_on_base : ∃ s : TcpServer Nat Nat,
    Run (ServerStep (.code id true)) (create [] (.ofLoops 0 [1]) false) [.accept 5 []] s ∧
      s.executed = [⟨0, .connectionEstablished, 0⟩] ∧ s.aborted = true ∧
      ¬ s.Confined (.code id true) := by
  refine ⟨_, Run.single ⟨rfl, rfl, rfl⟩, rfl, rfl, ?_⟩
  intro h
  rcases h ⟨0, .connectionEstablished, 0⟩ List.mem_cons_self rfl with ⟨l, hl, hthread⟩
  have hloop : l = 1 := (Option.some.inj hl).symm
  rw [hloop] at hthread
  cases hthread

theorem serverConfined_base : ∃ s : TcpServer Nat Nat,
    s.executed = [⟨0, .connectionEstablished, 0⟩, ⟨0, .handleClose, 0⟩] ∧
      (s.Confined (.code id true) ↔
        (EventLoopThreadPool.ofLoops 0 [] : EventLoopThreadPool Nat).loops = [] ∨
        ∀ e ∈ ([.accept 5 [], .handle 0 .handleClose] : List (ServerLabel Nat Nat)),
          e.isAccept = false) := by
  have hrun : Run (ServerStep (.code id true : ServerEnv Nat Nat)) (create [] (.ofLoops 0 []) false)
      [.accept 5 [], .handle 0 .handleClose] _ :=
    (Run.nil.snoc ⟨rfl, rfl, rfl⟩).snoc
      ⟨rfl, ⟨rfl, _, rfl, (rfl : TcpConnection.established _ = true)⟩, rfl⟩
  exact ⟨_, rfl, serverConfined_iff (by decide) hrun⟩

end Runs

end LearnMuduo
