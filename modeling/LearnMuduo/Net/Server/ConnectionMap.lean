import LearnMuduo.Net.Server.Ledger

/-!
# The connections that a server knows

The map of a server is exact in states without tasks, if the connections report their closes to it.
`newConnection` does not see to that: a connection that has closed stays in the map, and its close
ends in a call of an empty callback. To set the callback is not enough, the tasks that it posts have
to capture `conn` by value as well.
-/

namespace LearnMuduo

open Framework

namespace TcpServer

variable {T L : Type} {env : ServerEnv T L} {s s' : TcpServer T L} {i j : Nat} {op : ConnOp} {t : T}

/-- The map contains exactly the connections that have not closed, under their names, and those that
have closed were destroyed once. -/
structure Exact (s : TcpServer T L) : Prop where
  registered : ∀ i c, s.connections[i]? = some c →
    (s.connectionMap.lookup c.connName = some i ↔ s.closes i = 0)
  named : ∀ name i, s.connectionMap.lookup name = some i →
    ∃ c, s.connections[i]? = some c ∧ c.connName = name
  destroyed : ∀ i, s.closes i ≠ 0 → s.destroyed i = 1

/-- No queued task is outstanding. -/
structure Idle (s : TcpServer T L) : Prop where
  queues : ∀ l, s.queues l = []
  tasks : ∀ c ∈ s.connections, c.conn.tasks = []

theorem Ledger.idle (h : Ledger env s none) (hidle : s.Idle) (i : Nat) :
    s.destroying none i = 0 ∧ s.destroyed i = if env.setsCloseCb then s.closes i else 0 := by
  have hqueue : s.queueOf i = [] := by
    rw [queueOf]
    cases s.ioLoopOf i with
    | none => rfl
    | some l => exact hidle.queues l
  have hdestroying : s.destroying none i = 0 := by
    rw [destroying, hqueue]
    rfl
  have hremoving : s.removing none i = 0 := by
    rw [removing, hidle.queues]
    rfl
  have hbalance := h.balance i
  rw [hdestroying, hremoving] at hbalance
  exact ⟨hdestroying, (Nat.zero_add _).symm.trans hbalance⟩

theorem Ledger.exact (h : Ledger env s none) (hwired : env.setsCloseCb = true) (hidle : s.Idle)
    (hfew : s.connections.length < 2 ^ 31) (honce : ∀ i, s.closes i ≤ 1) : s.Exact where
  registered := by
    intro i c hc
    have hlt : i < s.connections.length := (List.getElem?_eq_some_iff.mp hc).1
    rcases h.idle hidle i with ⟨hdestroying, hdestroyed⟩
    rw [hwired, if_pos rfl] at hdestroyed
    rw [(h.named i c hc).1, h.registered hfew i hlt, hdestroying, hdestroyed, Nat.zero_add]
    by_cases hzero : s.closes i = 0
    · rw [if_pos hzero]
      exact iff_of_true rfl hzero
    · rw [if_neg hzero]
      exact iff_of_false (Option.some_ne_none i).symm hzero
  named := by
    intro name i hlookup
    rcases h.own name i hlookup with ⟨hlt, hname⟩
    have hc := List.getElem?_eq_getElem hlt
    exact ⟨_, hc, (h.named i _ hc).1.trans hname.symm⟩
  destroyed := by
    intro i hpos
    have hdestroyed := (h.idle hidle i).2
    rw [hwired, if_pos rfl] at hdestroyed
    have hle := honce i
    omega

/-- Without it the map is exact as long as no connection has closed. -/
theorem Ledger.exact_iff (h : Ledger env s none) (hwired : env.setsCloseCb = false)
    (hidle : s.Idle) (hfew : s.connections.length < 2 ^ 31) :
    s.Exact ↔ ∀ i, s.closes i = 0 := by
  have hall : ∀ i c, s.connections[i]? = some c → s.connectionMap.lookup c.connName = some i := by
    intro i c hc
    have hlt : i < s.connections.length := (List.getElem?_eq_some_iff.mp hc).1
    rcases h.idle hidle i with ⟨hdestroying, hdestroyed⟩
    rw [hwired, if_neg Bool.false_ne_true] at hdestroyed
    rw [(h.named i c hc).1, h.registered hfew i hlt, hdestroying, hdestroyed, if_pos rfl]
  constructor
  · intro hexact i
    by_contra hpos
    rcases exists_of_closes hpos with ⟨c, hc⟩
    exact hpos ((hexact.registered i c hc).mp (hall i c hc))
  · intro hzero
    refine ⟨fun i c hc => iff_of_true (hall i c hc) (hzero i), fun name i hlookup => ?_,
      fun i hpos => absurd (hzero i) hpos⟩
    rcases h.own name i hlookup with ⟨hlt, hname⟩
    have hc := List.getElem?_eq_getElem hlt
    exact ⟨_, hc, (h.named i _ hc).1.trans hname.symm⟩

/-- How often an operation of the connection at `i` comes to `handleClose`. -/
def closingsOf (s : TcpServer T L) (i : Nat) (op : ConnOp) : Nat :=
  s.connections[i]?.elim 0 fun c => c.conn.closings op

/-- How often a step comes to `handleClose`. -/
def closings (s : TcpServer T L) : ServerLabel T L → Nat
  | .handle i op => s.closingsOf i op
  | .runConnTask i => s.closingsOf i .runTask
  | _ => 0

theorem closes_of_connections (h : s'.connections = s.connections) (j : Nat) :
    s'.closes j = s.closes j := by
  rw [closes, closes, h]

section Steps

variable [DecidableEq T] [DecidableEq L]

theorem closes_perform (hstrict : env.strict = false)
    (hcloses : ∀ c, s.connections[i]? = some c → ClosesAs c.conn op) (j : Nat) :
    (s.perform env i op t).val.closes j =
      s.closes j + if j = i then s.closingsOf i op else 0 := by
  cases hc : s.connections[i]? with
  | none =>
      rw [perform, hc, closingsOf, hc]
      simp
  | some c =>
      have hconns : (s.perform env i op t).val.connections =
          ((s.record i op t).setConn i c (c.conn.apply op).val).connections := by
        rw [perform_val hstrict hc]
        dsimp only
        split
        · split
          · exact connections_removeConnection env _ i t
          · rfl
        · rfl
      have hset : (s.perform env i op t).val.closes j =
          if j = i then (c.conn.apply op).val.calls.count .close else s.closes j :=
        (closes_of_connections hconns j).trans (closes_setConn hc j)
      rw [hset, closingsOf, hc]
      by_cases hj : j = i
      · subst hj
        rw [if_pos rfl, if_pos rfl, (hcloses c hc).count, closes_of_getElem? hc]
        rfl
      · rw [if_neg hj, if_neg hj]
        rfl

theorem closes_perform_of_zero (hstrict : env.strict = false)
    (hcloses : ∀ c, s.connections[i]? = some c → ClosesAs c.conn op)
    (hzero : ∀ c : TcpConnection, c.closings op = 0) (j : Nat) :
    (s.perform env i op t).val.closes j = s.closes j := by
  have hnone : s.closingsOf i op = 0 := by
    rw [closingsOf]
    cases s.connections[i]? with
    | none => rfl
    | some c => exact hzero c.conn
  rw [closes_perform hstrict hcloses, hnone, ite_self, Nat.add_zero]

theorem closes_performInLoop (hstrict : env.strict = false) (hallows : s.Allows i op)
    (hop : op.isDispatch = false) (j : Nat) :
    (s.performInLoop env i op).val.closes j =
      s.closes j + if j = i then s.closingsOf i op else 0 := by
  rw [performInLoop]
  cases hc : s.connections[i]? with
  | none =>
      rw [closingsOf, hc]
      simp
  | some c => exact closes_perform hstrict (fun _ hc => hallows.closesAs hop hc) j

theorem closes_userCall {call : UserCall} (hstrict : env.strict = false)
    (hallows : s.Allows i (call.op true)) (j : Nat) :
    (s.userCall env i t call).val.closes j = s.closes j := by
  rw [userCall]
  cases s.connections[i]? with
  | none => rfl
  | some c =>
      refine closes_perform_of_zero hstrict (fun _ hc => hallows.closesAs_userCall _ hc) ?_ j
      intro c
      cases call <;> rfl

theorem closes_send_mt {message : Memory} {result : WriteResult} (hstrict : env.strict = false)
    (hallows : s.Allows i (.sendInLoop message result)) (j : Nat) :
    (s.send_mt env i t message result).val.closes j = s.closes j := by
  rw [send_mt]
  cases s.connections[i]? with
  | none => rfl
  | some c =>
      dsimp only
      split
      · split
        · exact closes_perform_of_zero hstrict (fun _ hc => hallows.closesAs rfl hc)
            (fun _ => rfl) j
        · rfl
      · rfl

theorem closes_runTask {l : L} {result : WriteResult} {task : ServerTask}
    (hstrict : env.strict = false) (htask : (s.queues l).head? = some task)
    (hcan : s.CanRun result task) (j : Nat) :
    (s.runTask env l result).val.closes j = s.closes j := by
  rw [runTask]
  cases hqueue : s.queues l with
  | nil => rfl
  | cons first tasks =>
      rw [hqueue] at htask
      have hfirst : first = task := Option.some.inj htask
      subst hfirst
      cases first with
      | removeConnectionInLoop i =>
          exact closes_of_connections (connections_removeConnectionInLoop env _ i _) j
      | connectionDestroyed i =>
          exact closes_perform_of_zero hstrict (fun c _ => closesAs_connectionDestroyed c.conn)
            (fun _ => rfl) j
      | sendInLoop i message =>
          have hallows : ({ s with queues := Function.update s.queues l tasks } :
              TcpServer T L).Allows i (.sendInLoop message result) := hcan
          exact closes_perform_of_zero hstrict (fun _ hc => hallows.closesAs rfl hc)
            (fun _ => rfl) j

theorem closes_newConnection {sockfd : Int} {pending : List UInt8} (hstrict : env.strict = false)
    (j : Nat) : (s.newConnection env sockfd pending t).val.closes j = s.closes j := by
  rw [newConnection, if_pos (ServerEnv.passes_of_not_strict hstrict _ t)]
  exact (closes_perform_of_zero hstrict (fun _ hc => closesAs_added hc) (fun _ => rfl) j).trans
    (closes_addConnection j)

theorem closes_postDestroyed (hstrict : env.strict = false) (j : Nat) :
    (s.postDestroyed env i t).val.closes j = s.closes j := by
  rw [postDestroyed]
  cases s.connections[i]? with
  | none => rfl
  | some c =>
      dsimp only
      split
      · exact closes_perform_of_zero hstrict (fun c _ => closesAs_connectionDestroyed c.conn)
          (fun _ => rfl) j
      · rfl

theorem closes_destroy {order : List (Sigma fun _ : List Char => Nat)}
    (hstrict : env.strict = false) (j : Nat) :
    (s.destroy env order t).val.closes j = s.closes j := by
  rw [destroy, if_pos (ServerEnv.passes_of_not_strict hstrict _ t)]
  show (order.foldlM (fun (s : TcpServer T L) entry =>
    s.postDestroyed env entry.2 t) s).val.closes j = s.closes j
  induction order generalizing s with
  | nil => rfl
  | cons entry order ih =>
      rw [List.foldlM_cons, Checked.val_bind, ih]
      exact closes_postDestroyed hstrict j

end Steps

end TcpServer

section Runs

variable {T L : Type} [DecidableEq T] [DecidableEq L] {env : ServerEnv T L} {s s' : TcpServer T L}
  {e : ServerLabel T L} {es : List (ServerLabel T L)} {serverName : List Char}
  {pool : EventLoopThreadPool L} {hasWriteCompleteCb : Bool}

open TcpServer

theorem isDispatch_of_isHandler {op : ConnOp} (h : op.isHandler = true) :
    op.isDispatch = false := by
  cases op with
  | handleEvents _ _ _ => exact absurd h Bool.noConfusion
  | _ => rfl

theorem ServerStep.closes_iff (hstrict : env.strict = false) (h : ServerStep env s e s') :
    (∀ j, s'.closes j = 0) ↔ (∀ j, s.closes j = 0) ∧ s.closings e = 0 := by
  have hkept : (∀ j, s'.closes j = s.closes j) → s.closings e = 0 →
      ((∀ j, s'.closes j = 0) ↔ (∀ j, s.closes j = 0) ∧ s.closings e = 0) := by
    intro hsame hzero
    simp [hsame, hzero]
  have hclosed : ∀ i n, (∀ j, s'.closes j = s.closes j + if j = i then n else 0) →
      s.closings e = n → ((∀ j, s'.closes j = 0) ↔ (∀ j, s.closes j = 0) ∧ s.closings e = 0) := by
    intro i n hsum hclosings
    rw [hclosings]
    constructor
    · intro hzero
      refine ⟨fun j => ?_, ?_⟩
      · have hj := hsum j
        rw [hzero] at hj
        omega
      · have hi := hsum i
        rw [hzero, if_pos rfl] at hi
        omega
    · intro hzero j
      rw [hsum, hzero.1, hzero.2, ite_self]
  rcases h with ⟨-, henabled, hs'⟩
  subst hs'
  cases e with
  | accept sockfd pending => exact hkept (closes_newConnection hstrict) rfl
  | handle i op =>
      have hop := isDispatch_of_isHandler henabled.1
      exact hclosed i _ (closes_performInLoop hstrict henabled.2 hop) rfl
  | runConnTask i => exact hclosed i _ (closes_performInLoop hstrict henabled rfl) rfl
  | call i t call => exact hkept (closes_userCall hstrict henabled) rfl
  | send_mt i t message result => exact hkept (closes_send_mt hstrict henabled) rfl
  | runTask l result =>
      rcases henabled with ⟨task, htask, hcan⟩
      exact hkept (closes_runTask hstrict htask hcan) rfl
  | destroy order t => exact hkept (closes_destroy hstrict) rfl

/-- If `newConnection` set the close callback, and the tasks kept the connection itself, the map
would be exact in every run. -/
theorem exact_of_setsCloseCb (hstrict : env.strict = false) (hwired : env.setsCloseCb = true)
    (h : Run (ServerStep env) (create serverName pool hasWriteCompleteCb) es s)
    (halive : s.alive = true) (hidle : s.Idle) (hfew : s.connections.length < 2 ^ 31)
    (honce : ∀ i, s.closes i ≤ 1) : s.Exact :=
  (ledger_of_run hstrict h halive).exact hwired hidle hfew honce

/-- A step in which no connection closes. -/
def UnclosedStep (env : ServerEnv T L) (s : TcpServer T L) (e : ServerLabel T L)
    (s' : TcpServer T L) : Prop :=
  ServerStep env s e s' ∧ s.closings e = 0

/-- The map is exact at the end of exactly those runs in which no connection closes. -/
theorem exact_iff_unclosed {threadId : L → T}
    (h : Run (ServerStep (.code threadId false)) (create serverName pool hasWriteCompleteCb) es s)
    (halive : s.alive = true) (hidle : s.Idle) (hfew : s.connections.length < 2 ^ 31) :
    s.Exact ↔ Run (UnclosedStep (.code threadId false))
      (create serverName pool hasWriteCompleteCb) es s := by
  rw [(ledger_of_run rfl h halive).exact_iff rfl hidle hfew]
  refine h.iff_forall_good (fun _ _ _ _ h h' => h.2.2.trans h'.2.2.symm) (fun _ _ _ _ _ => trivial)
    (fun _ _ _ _ hstep => hstep.closes_iff rfl) trivial fun _ => rfl

/-- One connection, which its peer closes: it stays in the map and is not destroyed. -/
theorem closed_stays : ∃ s : TcpServer Nat Nat,
    Run (ServerStep (.code id false)) (create [] (.ofLoops 0 []) false)
      [.accept 5 [], .handle 0 .handleClose] s ∧
      s.alive = true ∧ s.Idle ∧ s.connections.length = 1 ∧ s.threw = true ∧ s.closes 0 = 1 ∧
      s.destroyed 0 = 0 ∧ ¬ s.Exact := by
  have hrun : Run (ServerStep (.code id false : ServerEnv Nat Nat))
      (create [] (.ofLoops 0 []) false) [.accept 5 [], .handle 0 .handleClose] _ :=
    (Run.nil.snoc ⟨rfl, rfl, rfl⟩).snoc
      ⟨rfl, ⟨rfl, _, rfl, (rfl : TcpConnection.established _ = true)⟩, rfl⟩
  refine ⟨_, hrun, rfl, ⟨fun _ => rfl, ?_⟩, rfl, rfl, rfl, rfl, ?_⟩
  · intro c hc
    rw [List.mem_singleton.mp hc]
    rfl
  · intro h
    exact absurd (h.destroyed 0 Nat.one_ne_zero) Nat.zero_ne_one

theorem exact_two : ∃ s : TcpServer Nat Nat,
    s.connections.map (·.ioLoop) = [1, 2] ∧ s.Exact := by
  have hfirst : UnclosedStep (.code id false : ServerEnv Nat Nat)
      (create [] (.ofLoops 0 [1, 2]) false) (.accept 5 []) _ := ⟨⟨rfl, rfl, rfl⟩, rfl⟩
  have hsecond : UnclosedStep (.code id false : ServerEnv Nat Nat)
      ((create [] (.ofLoops 0 [1, 2]) false).apply (.code id false) (.accept 5 [])).val
      (.accept 6 []) _ := ⟨⟨rfl, rfl, rfl⟩, rfl⟩
  have hrun := (Run.single hfirst).snoc hsecond
  refine ⟨_, ?_, (exact_iff_unclosed (hrun.mono fun _ _ _ h => h.1) rfl ?_ ?_).mpr hrun⟩
  · rfl
  · refine ⟨fun _ => rfl, ?_⟩
    intro c hc
    rcases List.mem_cons.mp hc with hc | hc
    · rw [hc]
      rfl
    · rw [List.mem_singleton.mp hc]
      rfl
  · decide

end Runs

end LearnMuduo
