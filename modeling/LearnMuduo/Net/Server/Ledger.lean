import LearnMuduo.Net.Server.Placement

/-!
# The accounts of a server

A connection that has closed is to leave the map in the base loop, and to be destroyed in its own
loop. The removals that are on their way, the destructions that are on their way and the
destructions that were executed add up to the closes that the server was told of.
-/

namespace LearnMuduo

open Framework

/-- The name of the connection at position `i`. -/
def connNameOf (serverName : List Char) (i : Nat) : List Char :=
  serverName ++ '#' :: decimal (wrapInt (i + 1))

theorem connNameOf_inj {serverName : List Char} {i j : Nat} (hi : i + 1 < 2 ^ 31)
    (hj : j + 1 < 2 ^ 31) (h : connNameOf serverName i = connNameOf serverName j) : i = j := by
  have htail := List.append_cancel_left h
  have hdecimal := (List.cons.inj htail).2
  have hwrap : ∀ {n : Nat}, n + 1 < 2 ^ 31 → wrapInt ((n : Int) + 1) = ((n + 1 : Nat) : Int) :=
    fun {n} hn => wrapInt_natCast hn
  rw [hwrap hi, hwrap hj] at hdecimal
  exact Nat.succ.inj (decimal_natCast_inj hdecimal)

namespace TcpServer

variable {T L : Type} {env : ServerEnv T L} {s s' : TcpServer T L} {i j : Nat} {op : ConnOp} {t : T}
  {hand : Option ServerTask}

/-- How often `handleClose` has run on a connection. -/
def closes (s : TcpServer T L) (i : Nat) : Nat :=
  s.connections[i]?.elim 0 fun c => c.conn.calls.count .close

/-- How often `connectionDestroyed` has run on a connection. -/
def destroyed (s : TcpServer T L) (i : Nat) : Nat :=
  s.executed.countP fun x => x.conn == i && x.op == .connectionDestroyed

/-- The queue of the loop of a connection. -/
def queueOf (s : TcpServer T L) (i : Nat) : List ServerTask := (s.ioLoopOf i).elim [] s.queues

/-- Removals of the connection that are queued or in hand. -/
def removing (s : TcpServer T L) (hand : Option ServerTask) (i : Nat) : Nat :=
  (s.queues s.pool.baseLoop ++ hand.toList).count (.removeConnectionInLoop i)

/-- Destructions of the connection that are queued or in hand. -/
def destroying (s : TcpServer T L) (hand : Option ServerTask) (i : Nat) : Nat :=
  (s.queueOf i ++ hand.toList).count (.connectionDestroyed i)

/-- The accounts of a server that is alive, with the task that is being worked on in hand. -/
structure Ledger (env : ServerEnv T L) (s : TcpServer T L) (hand : Option ServerTask) : Prop where
  nextConnId : s.nextConnId = wrapInt (s.connections.length + 1)
  named : ∀ i c, s.connections[i]? = some c →
    c.connName = connNameOf s.serverName i ∧ c.hasCloseCb = env.setsCloseCb
  balance : ∀ i, s.removing hand i + s.destroying hand i + s.destroyed i =
    if env.setsCloseCb then s.closes i else 0
  registered : s.connections.length < 2 ^ 31 → ∀ i, i < s.connections.length →
    s.connectionMap.lookup (connNameOf s.serverName i) =
      if s.destroying hand i + s.destroyed i = 0 then some i else none
  own : ∀ name i, s.connectionMap.lookup name = some i →
    i < s.connections.length ∧ name = connNameOf s.serverName i

theorem closes_of_getElem? {c : ServerConnection L} (hc : s.connections[i]? = some c) :
    s.closes i = c.conn.calls.count .close := by
  rw [closes, hc]
  rfl

theorem exists_of_closes (h : s.closes i ≠ 0) : ∃ c, s.connections[i]? = some c := by
  cases hc : s.connections[i]? with
  | none =>
      rw [closes, hc] at h
      exact absurd rfl h
  | some c => exact ⟨c, rfl⟩

theorem closes_setConn {c : ServerConnection L} {conn : TcpConnection}
    (hc : s.connections[i]? = some c) (j : Nat) :
    (s.setConn i c conn).closes j = if j = i then conn.calls.count .close else s.closes j := by
  rw [closes, closes, setConn]
  by_cases hj : j = i
  · subst hj
    have hlt : j < s.connections.length := (List.getElem?_eq_some_iff.mp hc).1
    rw [if_pos rfl, List.getElem?_set_self hlt]
    rfl
  · rw [if_neg hj, List.getElem?_set_ne (Ne.symm hj)]

theorem queueOf_setConn {c : ServerConnection L} {conn : TcpConnection}
    (hc : s.connections[i]? = some c) (j : Nat) : (s.setConn i c conn).queueOf j = s.queueOf j := by
  rw [queueOf, queueOf, ioLoopOf_setConn hc]
  rfl

theorem destroyed_record (s : TcpServer T L) (i : Nat) (op : ConnOp) (t : T) (j : Nat) :
    (s.record i op t).destroyed j =
      s.destroyed j + if i = j ∧ op = .connectionDestroyed then 1 else 0 := by
  rw [destroyed, record, List.countP_append, List.countP_singleton]
  simp [destroyed]

theorem Ledger.exists_conn (h : Ledger env s hand)
    (hpos : 0 < s.removing hand i + s.destroying hand i) : ∃ c, s.connections[i]? = some c := by
  refine exists_of_closes fun hzero => ?_
  have hbalance := h.balance i
  rw [hzero, ite_self] at hbalance
  omega

theorem removing_some (s : TcpServer T L) (task : ServerTask) (j : Nat) :
    s.removing (some task) j =
      s.removing none j + if task = .removeConnectionInLoop j then 1 else 0 := by
  simp [removing, List.count_singleton]

theorem destroying_some (s : TcpServer T L) (task : ServerTask) (j : Nat) :
    s.destroying (some task) j =
      s.destroying none j + if task = .connectionDestroyed j then 1 else 0 := by
  simp [destroying, List.count_singleton]

theorem Ledger.moved {hand' : Option ServerTask} (h : Ledger env s hand)
    (hserverName : s'.serverName = s.serverName)
    (hnextConnId : s'.nextConnId = s.nextConnId) (hmap : s'.connectionMap = s.connectionMap)
    (hlength : s'.connections.length = s.connections.length)
    (hnamed : ∀ i c, s'.connections[i]? = some c →
      c.connName = connNameOf s.serverName i ∧ c.hasCloseCb = env.setsCloseCb)
    (hbalance : ∀ i, s'.removing hand' i + s'.destroying hand' i + s'.destroyed i =
      if env.setsCloseCb then s'.closes i else 0)
    (hgone : ∀ i, s'.destroying hand' i + s'.destroyed i = s.destroying hand i + s.destroyed i) :
    Ledger env s' hand' where
  nextConnId := by rw [hnextConnId, hlength]; exact h.nextConnId
  named := fun i c hc => hserverName ▸ hnamed i c hc
  balance := hbalance
  registered := by
    intro hfew i hi
    rw [hlength] at hfew hi
    rw [hmap, hserverName, hgone]
    exact h.registered hfew i hi
  own := by
    intro name i hlookup
    rw [hmap] at hlookup
    rw [hlength, hserverName]
    exact h.own name i hlookup

theorem Ledger.record (h : Ledger env s hand) (hop : op ≠ .connectionDestroyed) :
    Ledger env (s.record i op t) hand := by
  have hsame : ∀ j, (s.record i op t).destroyed j = s.destroyed j := by
    intro j
    rw [destroyed_record, if_neg fun hboth => hop hboth.2]
    rfl
  refine h.moved rfl rfl rfl rfl h.named (fun j => ?_) fun j => ?_
  · rw [hsame]
    exact h.balance j
  · rw [hsame]
    rfl

theorem Ledger.recordDestroyed (h : Ledger env s (some (.connectionDestroyed i))) :
    Ledger env (s.record i .connectionDestroyed t) none := by
  have hdestroyed : ∀ j, (s.record i .connectionDestroyed t).destroyed j =
      s.destroyed j + if i = j then 1 else 0 := by
    intro j
    simp [destroyed_record]
  have hdestroying : ∀ j, s.destroying (some (.connectionDestroyed i)) j =
      s.destroying none j + if i = j then 1 else 0 := by
    intro j
    simp [destroying_some]
  have hremoving : ∀ j, s.removing (some (.connectionDestroyed i)) j = s.removing none j := by
    intro j
    simp [removing_some]
  refine h.moved rfl rfl rfl rfl h.named (fun j => ?_) fun j => ?_
  · have hbalance := h.balance j
    rw [hdestroying, hremoving] at hbalance
    show s.removing none j + s.destroying none j + _ = if env.setsCloseCb then s.closes j else 0
    rw [hdestroyed, ← hbalance]
    omega
  · show s.destroying none j + _ = _
    rw [hdestroyed, hdestroying]
    omega

theorem exists_info_of_setConn {c c' : ServerConnection L} {conn : TcpConnection}
    (hc : s.connections[i]? = some c) (hc' : (s.setConn i c conn).connections[j]? = some c') :
    ∃ c₀, s.connections[j]? = some c₀ ∧ c'.toConnectionInfo = c₀.toConnectionInfo := by
  rw [setConn] at hc'
  by_cases hj : i = j
  · subst hj
    have hlt : i < s.connections.length := (List.getElem?_eq_some_iff.mp hc).1
    rw [List.getElem?_set_self hlt] at hc'
    exact ⟨c, hc, by rw [← Option.some.inj hc']⟩
  · rw [List.getElem?_set_ne hj] at hc'
    exact ⟨c', hc', rfl⟩

theorem Ledger.setConn {c : ServerConnection L} {conn : TcpConnection} {hand' : Option ServerTask}
    (h : Ledger env s hand) (hc : s.connections[i]? = some c)
    (hbalance : ∀ j, s.removing hand' j + s.destroying hand' j + s.destroyed j =
      if env.setsCloseCb then (s.setConn i c conn).closes j else 0)
    (hgone : ∀ j, s.destroying hand' j = s.destroying hand j) :
    Ledger env (s.setConn i c conn) hand' := by
  have hdestroying : ∀ j, (s.setConn i c conn).destroying hand' j = s.destroying hand' j := by
    intro j
    rw [destroying, destroying, queueOf_setConn hc]
  refine h.moved rfl rfl rfl (List.length_set ..) (fun j c' hc' => ?_) (fun j => ?_) fun j => ?_
  · rcases exists_info_of_setConn hc hc' with ⟨c₀, hc₀, hinfo⟩
    rw [hinfo]
    exact h.named j c₀ hc₀
  · rw [hdestroying]
    exact hbalance j
  · rw [hdestroying, hgone]
    rfl

theorem Ledger.setConn_same {c : ServerConnection L} {conn : TcpConnection} (h : Ledger env s hand)
    (hc : s.connections[i]? = some c)
    (hcalls : conn.calls.count .close = c.conn.calls.count .close) :
    Ledger env (s.setConn i c conn) hand := by
  refine h.setConn hc (fun j => ?_) fun _ => rfl
  have hcloses : (s.setConn i c conn).closes j = s.closes j := by
    rw [closes_setConn hc]
    by_cases hj : j = i
    · rw [if_pos hj, hcalls, hj, closes_of_getElem? hc]
    · rw [if_neg hj]
  rw [hcloses]
  exact h.balance j

theorem Ledger.setConn_closed {c : ServerConnection L} {conn : TcpConnection}
    (h : Ledger env s none) (hc : s.connections[i]? = some c)
    (hcalls : conn.calls.count .close = c.conn.calls.count .close + 1) :
    Ledger env (s.setConn i c conn)
      (if env.setsCloseCb then some (.removeConnectionInLoop i) else none) := by
  cases hwired : env.setsCloseCb with
  | false =>
      refine h.setConn hc (fun j => ?_) fun _ => rfl
      have hbalance := h.balance j
      rw [hwired] at hbalance ⊢
      exact hbalance
  | true =>
      refine h.setConn hc (fun j => ?_) fun j => ?_
      · have hbalance := h.balance j
        rw [hwired] at hbalance ⊢
        simp only [if_true] at hbalance ⊢
        rw [closes_setConn hc, removing_some, destroying_some]
        by_cases hj : j = i
        · subst hj
          rw [if_pos rfl, hcalls, ← closes_of_getElem? hc, ← hbalance]
          simp
          omega
        · have hne : ServerTask.removeConnectionInLoop i ≠ .removeConnectionInLoop j := by
            intro heq
            exact hj (ServerTask.removeConnectionInLoop.inj heq).symm
          rw [if_neg hj, ← hbalance, if_neg hne]
          simp
      · simp [destroying_some]

theorem count_toList_of_not_homed {l : L} {task x : ServerTask} (hhomed : s.Homed l task)
    (hx : ¬ s.Homed l x) : (some task).toList.count x = 0 := by
  have hne : task ≠ x := by
    intro heq
    exact hx (heq ▸ hhomed)
  simp [hne]

theorem inHand (s : TcpServer T L) (i j : Nat) :
    s.removing (some (.removeConnectionInLoop i)) j =
        s.removing none j + (if i = j then 1 else 0) ∧
      s.destroying (some (.removeConnectionInLoop i)) j = s.destroying none j ∧
      s.removing (some (.connectionDestroyed i)) j = s.removing none j ∧
      s.destroying (some (.connectionDestroyed i)) j =
        s.destroying none j + (if i = j then 1 else 0) := by
  simp [removing_some, destroying_some]

theorem Ledger.erase {c : ServerConnection L}
    (h : Ledger env s (some (.removeConnectionInLoop i))) (hc : s.connections[i]? = some c) :
    Ledger env { s with connectionMap := s.connectionMap.erase c.connName }
      (some (.connectionDestroyed i)) := by
  have hname : c.connName = connNameOf s.serverName i := (h.named i c hc).1
  have hlt : i < s.connections.length := (List.getElem?_eq_some_iff.mp hc).1
  refine ⟨h.nextConnId, h.named, fun j => ?_, fun hfew j hj => ?_, fun name j hlookup => ?_⟩
  · have hbalance := h.balance j
    rcases inHand s i j with ⟨hrr, hdr, hrd, hdd⟩
    rw [hrr, hdr] at hbalance
    show s.removing _ j + s.destroying _ j + s.destroyed j =
      if env.setsCloseCb then s.closes j else 0
    rw [hrd, hdd, ← hbalance]
    omega
  · have hregistered := h.registered hfew j hj
    rcases inHand s i j with ⟨-, hdr, -, hdd⟩
    show (s.connectionMap.erase c.connName).lookup (connNameOf s.serverName j) =
      if s.destroying _ j + s.destroyed j = 0 then some j else none
    rw [hdd]
    by_cases hij : i = j
    · subst hij
      rw [hname, AList.lookup_erase, if_pos rfl, if_neg (by omega)]
    · have hne : connNameOf s.serverName j ≠ c.connName := by
        intro heq
        rw [hname] at heq
        have hj' : j < s.connections.length := hj
        have hfew' : s.connections.length < 2 ^ 31 := hfew
        exact hij (connNameOf_inj (by omega) (by omega) heq.symm)
      rw [AList.lookup_erase_ne hne, hregistered, hdr, if_neg hij]
      rfl
  · by_cases heq : name = c.connName
    · rw [heq] at hlookup
      rw [AList.lookup_erase] at hlookup
      cases hlookup
    · rw [AList.lookup_erase_ne heq] at hlookup
      exact h.own name j hlookup

/-- The operation comes to `handleClose` as often as `closings` says, and at most once. -/
structure ClosesAs (c : TcpConnection) (op : ConnOp) : Prop where
  count : (c.apply op).val.calls.count .close = c.calls.count .close + c.closings op
  le_one : c.closings op ≤ 1

theorem closesAs_connectionDestroyed (c : TcpConnection) : ClosesAs c .connectionDestroyed :=
  ⟨(c.does_connectionDestroyed).reported.close, Nat.zero_le 1⟩

theorem closings_le_one {c : TcpConnection} (hop : op.isDispatch = false) : c.closings op ≤ 1 := by
  cases op with
  | handleEvents _ _ _ => exact absurd hop Bool.noConfusion
  | handleRead result => exact Bool.toNat_le _
  | handleClose => exact Nat.le_refl 1
  | forceCloseInLoop => exact Bool.toNat_le _
  | runTask => exact Bool.toNat_le _
  | _ => exact Nat.zero_le 1

theorem closesAs_of_allowed {c : TcpConnection} (h : c.Allowed op) (hop : op.isDispatch = false) :
    ClosesAs c op :=
  ⟨(ConnStep.does ⟨h, rfl⟩).reported.close, closings_le_one hop⟩

theorem closesAs_userCall {c : TcpConnection} {call : UserCall} (h : c.Allowed (call.op true))
    (inLoopThread : Bool) : ClosesAs c (call.op inLoopThread) := by
  cases call with
  | shutdown_mt => exact closesAs_of_allowed (h : c.established = true) rfl
  | forceClose => exact closesAs_of_allowed (h : c.established = true) rfl
  | startRead => exact closesAs_of_allowed (h : c.established = true) rfl
  | stopRead => exact closesAs_of_allowed (h : c.established = true) rfl

theorem Allows.closesAs (h : s.Allows i op) (hop : op.isDispatch = false) {c : ServerConnection L}
    (hc : s.connections[i]? = some c) : ClosesAs c.conn op := by
  rcases h with ⟨c', hc', hallowed⟩
  have hsame : c' = c := Option.some.inj (hc'.symm.trans hc)
  rw [← hsame]
  exact closesAs_of_allowed hallowed hop

theorem Allows.closesAs_userCall {call : UserCall} (h : s.Allows i (call.op true))
    (inLoopThread : Bool) {c : ServerConnection L} (hc : s.connections[i]? = some c) :
    ClosesAs c.conn (call.op inLoopThread) := by
  rcases h with ⟨c', hc', hallowed⟩
  have hsame : c' = c := Option.some.inj (hc'.symm.trans hc)
  rw [← hsame]
  exact TcpServer.closesAs_userCall hallowed inLoopThread

theorem Ledger.rehand {hand' : Option ServerTask} (h : Ledger env s hand)
    (hremoving : ∀ j, s.removing hand' j = s.removing hand j)
    (hdestroying : ∀ j, s.destroying hand' j = s.destroying hand j) : Ledger env s hand' := by
  refine h.moved rfl rfl rfl rfl h.named (fun j => ?_) fun j => ?_
  · rw [hremoving, hdestroying]
    exact h.balance j
  · rw [hdestroying]

theorem ledger_send_iff (i : Nat) (message : Memory) :
    Ledger env s (some (.sendInLoop i message)) ↔ Ledger env s none := by
  have hremoving : ∀ j, s.removing (some (.sendInLoop i message)) j = s.removing none j := by
    simp [removing_some]
  have hdestroying : ∀ j, s.destroying (some (.sendInLoop i message)) j = s.destroying none j := by
    simp [destroying_some]
  constructor
  · intro h
    exact h.rehand (fun j => (hremoving j).symm) fun j => (hdestroying j).symm
  · intro h
    exact h.rehand hremoving hdestroying

theorem ledger_create {serverName : List Char} {pool : EventLoopThreadPool L}
    {hasWriteCompleteCb : Bool} : Ledger env
    (create serverName pool hasWriteCompleteCb : TcpServer T L) none where
  nextConnId := rfl
  named := fun _ _ hc => absurd hc (by simp [create])
  balance := fun i => by
    rw [show (create serverName pool hasWriteCompleteCb : TcpServer T L).closes i = 0 from rfl,
      ite_self]
    rfl
  registered := fun _ _ hi => absurd hi (Nat.not_lt_zero _)
  own := fun _ _ hlookup => by cases hlookup

section Queues

variable [DecidableEq L] {l : L} {task : ServerTask} {tasks : List ServerTask}

theorem Ledger.setQueue {hand' : Option ServerTask} (h : Ledger env s hand)
    (hcount : ∀ x, s.Homed l x →
      (tasks ++ hand'.toList).count x = (s.queues l ++ hand.toList).count x)
    (hother : ∀ x, ¬ s.Homed l x → hand'.toList.count x = hand.toList.count x) :
    Ledger env { s with queues := Function.update s.queues l tasks } hand' := by
  have hremoving : ∀ j, ({ s with queues := Function.update s.queues l tasks } :
      TcpServer T L).removing hand' j = s.removing hand j := by
    intro j
    simp only [removing]
    by_cases hl : s.pool.baseLoop = l
    · rw [hl, Function.update_self]
      exact hcount _ hl.symm
    · rw [Function.update_of_ne hl, List.count_append, List.count_append]
      rw [hother (.removeConnectionInLoop j) fun hhomed => hl (Eq.symm hhomed)]
  have hdestroying : ∀ j, ({ s with queues := Function.update s.queues l tasks } :
      TcpServer T L).destroying hand' j = s.destroying hand j := by
    intro j
    have hloop : ({ s with queues := Function.update s.queues l tasks } :
        TcpServer T L).ioLoopOf j = s.ioLoopOf j := rfl
    simp only [destroying, queueOf]
    rw [hloop]
    by_cases hl : s.ioLoopOf j = some l
    · rw [hl]
      simp only [Option.elim_some, Function.update_self]
      exact hcount _ hl
    · have hhand := hother (.connectionDestroyed j) hl
      cases hj : s.ioLoopOf j with
      | none => exact hhand
      | some l' =>
          have hne : l' ≠ l := by
            intro heq
            exact hl (heq ▸ hj)
          simp only [Option.elim_some, Function.update_of_ne hne, List.count_append]
          rw [hhand]
  refine h.moved rfl rfl rfl rfl h.named (fun j => ?_) fun j => ?_
  · rw [hremoving, hdestroying]
    exact h.balance j
  · rw [hdestroying]
    rfl

theorem Ledger.queueTask (h : Ledger env s (some task)) (hhomed : s.Homed l task) :
    Ledger env (s.queueTask l task) none := by
  refine h.setQueue (fun x _ => ?_) fun x hx => ?_
  · simp
  · rw [count_toList_of_not_homed hhomed hx]
    rfl

theorem Ledger.takeTask (h : Ledger env s none) (hqueue : s.queues l = task :: tasks)
    (hhomed : s.Homed l task) :
    Ledger env { s with queues := Function.update s.queues l tasks } (some task) := by
  refine h.setQueue (fun x _ => ?_) fun x hx => ?_
  · rw [hqueue]
    simp [List.count_cons]
  · rw [count_toList_of_not_homed hhomed hx]
    rfl

end Queues

section AddConnection

variable {sockfd : Int} {pending : List UInt8}

theorem connections_addConnection (env : ServerEnv T L) (s : TcpServer T L) (sockfd : Int)
    (pending : List UInt8) :
    ∃ c, (s.addConnection env sockfd pending).val.connections = s.connections ++ [c] ∧
      c.connName = s.serverName ++ '#' :: decimal s.nextConnId ∧
      c.hasCloseCb = env.setsCloseCb ∧
      c.conn = TcpConnection.create sockfd pending s.hasWriteCompleteCb :=
  ⟨_, rfl, rfl, rfl, rfl⟩

theorem closes_addConnection (j : Nat) :
    (s.addConnection env sockfd pending).val.closes j = s.closes j := by
  rcases connections_addConnection env s sockfd pending with ⟨c, hconns, -, -, hconn⟩
  rw [closes, hconns, closes]
  by_cases hlt : j < s.connections.length
  · rw [List.getElem?_append_left hlt]
  · rw [List.getElem?_eq_none (Nat.le_of_not_lt hlt)]
    by_cases hj : j = s.connections.length
    · rw [hj, List.getElem?_concat_length, Option.elim_some, hconn]
      rfl
    · rw [List.getElem?_eq_none (by simp; omega)]

theorem destroying_addConnection (hs : s.Placed env) (j : Nat) :
    (s.addConnection env sockfd pending).val.destroying none j = s.destroying none j := by
  simp only [destroying, queueOf, ioLoopOf_addConnection]
  by_cases hj : j = s.connections.length
  · have hnone : s.ioLoopOf j = none := by
      rw [ioLoopOf, hj, List.getElem?_eq_none (Nat.le_refl _)]
      rfl
    rw [if_pos hj, hnone]
    simp only [Option.elim_some, Option.elim_none, List.count_append]
    have hzero : (s.queues s.pool.getNextLoop.val.1).count (.connectionDestroyed j) = 0 := by
      rw [List.count_eq_zero]
      intro htask
      have hhomed := hs.queued _ _ htask
      rw [Homed, hnone] at hhomed
      cases hhomed
    exact congrArg (· + _) hzero
  · rw [if_neg hj]
    rfl

theorem Ledger.addConnection (h : Ledger env s none) (hs : s.Placed env) :
    Ledger env (s.addConnection env sockfd pending).val none := by
  rcases connections_addConnection env s sockfd pending with
    ⟨c, hconns, hname, hcb, -⟩
  have hnew : c.connName = connNameOf s.serverName s.connections.length := by
    rw [hname, h.nextConnId]
    rfl
  have hlength : (s.addConnection env sockfd pending).val.connections.length =
      s.connections.length + 1 := by
    rw [hconns, List.length_append, List.length_singleton]
  have hmap : (s.addConnection env sockfd pending).val.connectionMap =
      s.connectionMap.insert (connNameOf s.serverName s.connections.length)
        s.connections.length := by
    rw [← hnew, hname]
    rfl
  have hremoving : ∀ j, (s.addConnection env sockfd pending).val.removing none j =
      s.removing none j := by
    intro j
    have hbase : (s.addConnection env sockfd pending).val.pool.baseLoop = s.pool.baseLoop :=
      s.pool.getNextLoop_loops.2
    rw [removing, hbase]
    rfl
  have hbalance : ∀ j, s.removing none j + s.destroying none j + s.destroyed j =
      if env.setsCloseCb then s.closes j else 0 := h.balance
  refine ⟨?_, fun j c' hc' => ?_, fun j => ?_, fun hfew j hj => ?_, fun name j hlookup => ?_⟩
  · rw [hlength]
    show wrapInt (s.nextConnId + 1) = _
    rw [h.nextConnId, wrapInt_wrapInt_add]
    push_cast
    rfl
  · rw [hconns] at hc'
    by_cases hj : j < s.connections.length
    · rw [List.getElem?_append_left hj] at hc'
      exact h.named j c' hc'
    · have hlast : j = s.connections.length := by
        have hlt := (List.getElem?_eq_some_iff.mp hc').1
        rw [List.length_append, List.length_singleton] at hlt
        omega
      rw [hlast, List.getElem?_concat_length] at hc'
      rw [← Option.some.inj hc', hlast]
      exact ⟨hnew, hcb⟩
  · rw [hremoving, destroying_addConnection hs, closes_addConnection]
    exact hbalance j
  · rw [hlength] at hfew hj
    rw [destroying_addConnection hs, hmap]
    show (s.connectionMap.insert (connNameOf s.serverName s.connections.length)
      s.connections.length).lookup (connNameOf s.serverName j) =
        if s.destroying none j + s.destroyed j = 0 then some j else none
    by_cases hlast : j = s.connections.length
    · have hzero : s.closes j = 0 := by
        rw [closes, hlast, List.getElem?_eq_none (Nat.le_refl _)]
        rfl
      have hj' := hbalance j
      rw [hzero, ite_self] at hj'
      rw [hlast] at hj' ⊢
      rw [AList.lookup_insert, if_pos (by omega)]
    · have hne : connNameOf s.serverName j ≠ connNameOf s.serverName s.connections.length := by
        intro heq
        exact hlast (connNameOf_inj (by omega) (by omega) heq)
      rw [AList.lookup_insert_ne hne]
      exact h.registered (by omega) j (by omega)
  · rw [hmap] at hlookup
    rw [hlength]
    by_cases hname : name = connNameOf s.serverName s.connections.length
    · rw [hname, AList.lookup_insert] at hlookup
      rw [← Option.some.inj hlookup]
      exact ⟨Nat.lt_succ_self _, hname⟩
    · rw [AList.lookup_insert_ne hname] at hlookup
      rcases h.own name j hlookup with ⟨hlt, hnamed⟩
      exact ⟨Nat.lt_succ_of_lt hlt, hnamed⟩

theorem closesAs_added {c : ServerConnection L}
    (hc : (s.addConnection env sockfd pending).val.connections[s.connections.length]? = some c) :
    ClosesAs c.conn .connectionEstablished := by
  rcases connections_addConnection env s sockfd pending with ⟨c', hconns, -, -, hconn⟩
  rw [hconns, List.getElem?_concat_length] at hc
  rw [← Option.some.inj hc, hconn]
  exact closesAs_of_allowed rfl rfl

end AddConnection

section Steps

variable [DecidableEq T] [DecidableEq L]

theorem Ledger.removeConnectionInLoop (hstrict : env.strict = false)
    (h : Ledger env s (some (.removeConnectionInLoop i))) :
    Ledger env (s.removeConnectionInLoop env i t).val none := by
  have hpos : 0 < s.removing (some (.removeConnectionInLoop i)) i := by
    rw [(inHand s i i).1, if_pos rfl]
    omega
  rcases h.exists_conn (Nat.add_pos_left hpos _) with ⟨c, hc⟩
  rw [TcpServer.removeConnectionInLoop, if_pos (ServerEnv.passes_of_not_strict hstrict _ t), hc]
  exact (h.erase hc).queueTask (ioLoopOf_of_getElem? hc)

theorem Ledger.removeConnection (hstrict : env.strict = false)
    (h : Ledger env s (some (.removeConnectionInLoop i))) :
    Ledger env (s.removeConnection env i t).val none := by
  rw [TcpServer.removeConnection]
  split
  · exact h.removeConnectionInLoop hstrict
  · exact h.queueTask rfl

theorem perform_val {c : ServerConnection L} (hstrict : env.strict = false)
    (hc : s.connections[i]? = some c) : (s.perform env i op t).val =
      let s' := (s.record i op t).setConn i c (c.conn.apply op).val
      if c.conn.calls.count .close < (c.conn.apply op).val.calls.count .close then
        if c.hasCloseCb then (s'.removeConnection env i t).val else { s' with threw := true }
      else s' := by
  have hpasses : (op.inLoop && !env.passes c.ioLoop t) = false := by
    rw [ServerEnv.passes_of_not_strict hstrict, Bool.not_true, Bool.and_false]
  rw [perform, hc]
  simp only [hpasses, Bool.false_eq_true, if_false, Checked.val_bind, Checked.val_ite,
    Checked.val_pure]

theorem Ledger.setConn_perform {c : ServerConnection L} (hstrict : env.strict = false)
    (h : Ledger env (s.record i op t) none) (hc : s.connections[i]? = some c)
    (hcloses : ClosesAs c.conn op) : Ledger env (s.perform env i op t).val none := by
  have hcount := hcloses.count
  have hle := hcloses.le_one
  rw [perform_val hstrict hc]
  by_cases hclosings : c.conn.closings op = 0
  · rw [hclosings, Nat.add_zero] at hcount
    dsimp only
    rw [if_neg (by omega)]
    exact h.setConn_same hc hcount
  · have hone : c.conn.closings op = 1 := by omega
    rw [hone] at hcount
    have hclosed := h.setConn_closed hc hcount
    have hcb : c.hasCloseCb = env.setsCloseCb := (h.named i c hc).2
    dsimp only
    rw [if_pos (by omega), hcb]
    cases hwired : env.setsCloseCb with
    | false =>
        rw [hwired] at hclosed
        exact hclosed.moved rfl rfl rfl rfl hclosed.named hclosed.balance fun _ => rfl
    | true =>
        rw [hwired] at hclosed
        exact hclosed.removeConnection hstrict

theorem Ledger.perform (hstrict : env.strict = false) (h : Ledger env s none)
    (hop : op ≠ .connectionDestroyed)
    (hcloses : ∀ c, s.connections[i]? = some c → ClosesAs c.conn op) :
    Ledger env (s.perform env i op t).val none := by
  cases hc : s.connections[i]? with
  | none =>
      rw [TcpServer.perform, hc]
      exact h
  | some c => exact (h.record hop).setConn_perform hstrict hc (hcloses c hc)

theorem Ledger.performDestroyed (hstrict : env.strict = false)
    (h : Ledger env s (some (.connectionDestroyed i))) :
    Ledger env (s.perform env i .connectionDestroyed t).val none := by
  have hpos : 0 < s.destroying (some (.connectionDestroyed i)) i := by
    rw [(inHand s i i).2.2.2, if_pos rfl]
    omega
  rcases h.exists_conn (Nat.add_pos_right _ hpos) with ⟨c, hc⟩
  exact h.recordDestroyed.setConn_perform hstrict hc (closesAs_connectionDestroyed c.conn)

theorem Ledger.performInLoop (hstrict : env.strict = false) (h : Ledger env s none)
    (hallows : s.Allows i op) (hop : op.isDispatch = false) (hne : op ≠ .connectionDestroyed) :
    Ledger env (s.performInLoop env i op).val none := by
  rw [TcpServer.performInLoop]
  cases s.connections[i]? with
  | none => exact h
  | some c => exact h.perform hstrict hne fun _ hc => hallows.closesAs hop hc

theorem Ledger.userCall {call : UserCall} (hstrict : env.strict = false) (h : Ledger env s none)
    (hallows : s.Allows i (call.op true)) : Ledger env (s.userCall env i t call).val none := by
  rw [TcpServer.userCall]
  cases s.connections[i]? with
  | none => exact h
  | some c =>
      refine h.perform hstrict ?_ fun _ hc => hallows.closesAs_userCall _ hc
      cases call <;> exact ConnOp.noConfusion

theorem Ledger.send_mt {message : Memory} {result : WriteResult} (hstrict : env.strict = false)
    (h : Ledger env s none) (hallows : s.Allows i (.sendInLoop message result)) :
    Ledger env (s.send_mt env i t message result).val none := by
  rw [TcpServer.send_mt]
  cases hc : s.connections[i]? with
  | none => exact h
  | some c =>
      dsimp only
      split
      · split
        · exact h.perform hstrict ConnOp.noConfusion fun _ hc => hallows.closesAs rfl hc
        · exact ((ledger_send_iff i message).mpr h).queueTask (ioLoopOf_of_getElem? hc)
      · exact h

theorem Ledger.runTask {l : L} {result : WriteResult} {task : ServerTask}
    (hstrict : env.strict = false) (h : Ledger env s none) (hs : s.Placed env)
    (htask : (s.queues l).head? = some task) (hcan : s.CanRun result task) :
    Ledger env (s.runTask env l result).val none := by
  rw [TcpServer.runTask]
  cases hqueue : s.queues l with
  | nil => exact h
  | cons first tasks =>
      rw [hqueue] at htask
      have hfirst : first = task := Option.some.inj htask
      subst hfirst
      have hhomed : s.Homed l first := hs.queued l first (hqueue ▸ List.mem_cons_self)
      have htaken := h.takeTask hqueue hhomed
      cases first with
      | removeConnectionInLoop i => exact htaken.removeConnectionInLoop hstrict
      | connectionDestroyed i => exact htaken.performDestroyed hstrict
      | sendInLoop i message =>
          exact ((ledger_send_iff i message).mp htaken).perform hstrict ConnOp.noConfusion
            fun _ hc => Allows.closesAs hcan rfl hc

theorem Ledger.newConnection {sockfd : Int} {pending : List UInt8} (hstrict : env.strict = false)
    (h : Ledger env s none) (hs : s.Placed env) :
    Ledger env (s.newConnection env sockfd pending t).val none := by
  rw [TcpServer.newConnection, if_pos (ServerEnv.passes_of_not_strict hstrict _ t)]
  exact (h.addConnection hs).perform hstrict ConnOp.noConfusion fun _ hc => closesAs_added hc

end Steps

end TcpServer

section Runs

variable {T L : Type} [DecidableEq T] [DecidableEq L] {env : ServerEnv T L} {s s' : TcpServer T L}
  {e : ServerLabel T L} {es : List (ServerLabel T L)} {serverName : List Char}
  {pool : EventLoopThreadPool L} {hasWriteCompleteCb : Bool}

open TcpServer

theorem ServerStep.ledger (hstrict : env.strict = false) (h : ServerStep env s e s')
    (hs : s.Placed env) (halive : s'.alive = true) (hledger : Ledger env s none) :
    Ledger env s' none := by
  rcases h with ⟨-, henabled, hs'⟩
  subst hs'
  cases e with
  | accept sockfd pending => exact hledger.newConnection hstrict hs
  | handle i op =>
      refine hledger.performInLoop hstrict henabled.2 ?_ ?_
      · cases op <;> first | rfl | exact absurd henabled.1 Bool.noConfusion
      · intro heq
        rw [heq] at henabled
        exact absurd henabled.1 Bool.noConfusion
  | runConnTask i => exact hledger.performInLoop hstrict henabled rfl ConnOp.noConfusion
  | call i t call => exact hledger.userCall hstrict henabled
  | send_mt i t message result => exact hledger.send_mt hstrict henabled
  | runTask l result =>
      rcases henabled with ⟨task, htask, hcan⟩
      exact hledger.runTask hstrict hs htask hcan
  | destroy order t =>
      change (s.destroy env order t).val.alive = true at halive
      rw [destroy, if_pos (ServerEnv.passes_of_not_strict hstrict _ t)] at halive
      exact absurd halive Bool.false_ne_true

theorem ledger_of_run (hstrict : env.strict = false)
    (h : Run (ServerStep env) (create serverName pool hasWriteCompleteCb) es s)
    (halive : s.alive = true) : Ledger env s none := by
  induction h with
  | nil => exact ledger_create
  | snoc hrun hstep ih =>
      have hplaced := (placed_of_run hrun).1
      exact hstep.ledger hstrict hplaced halive (ih ((hstep.carries hplaced).lives halive))

end Runs

end LearnMuduo
