import LearnMuduo.Net.Server.Acceptor

/-!
# Who owns an accepted descriptor

A descriptor that an `accept` returns is to become one connection's, or to be closed. `handleRead`
hands the descriptor of the listening socket to the callback: the accepted one is lost, and the
connections share the listening one. Handing over the accepted descriptor would be enough.
-/

namespace LearnMuduo

open Framework

section Descriptors

variable {T L : Type} {env : ServerEnv T L} {s : TcpServer T L} {i : Nat} {t : T}

theorem fds_setConn {c : ServerConnection L} {conn : TcpConnection}
    (hc : s.connections[i]? = some c) (hfd : conn.channel.fd = c.conn.channel.fd) :
    (s.setConn i c conn).fds = s.fds := by
  have hlt : i < s.connections.length := (List.getElem?_eq_some_iff.mp hc).1
  have hget : s.connections[i] = c := (List.getElem?_eq_some_iff.mp hc).2
  have hlt' : i < s.fds.length := by
    rw [TcpServer.fds, List.length_map]
    exact hlt
  have hself : s.fds[i] = (c.sockfd, conn.channel.fd) := by
    simp only [TcpServer.fds, List.getElem_map, hget, hfd]
  have hset : (s.setConn i c conn).fds = s.fds.set i (c.sockfd, conn.channel.fd) := List.map_set
  rw [hset, ← hself, List.set_getElem_self]

variable [DecidableEq T] [DecidableEq L]

theorem fds_perform_established :
    (s.perform env i .connectionEstablished t).val.fds = s.fds := by
  rw [TcpServer.perform]
  cases hc : s.connections[i]? with
  | none => rfl
  | some c =>
      have hset : ((s.record i .connectionEstablished t).setConn i c
          (c.conn.apply .connectionEstablished).val).fds = s.fds := fds_setConn hc rfl
      dsimp only
      split
      · rfl
      · simp only [Checked.val_bind]
        split
        · split
          · rw [TcpServer.fds, TcpServer.connections_removeConnection]
            exact hset
          · exact hset
        · exact hset

theorem fds_newConnection {sockfd : Int} {pending : List UInt8}
    (hpasses : env.passes s.pool.baseLoop t = true) :
    (s.newConnection env sockfd pending t).val.fds = s.fds ++ [(sockfd, sockfd)] := by
  have hadded : (s.addConnection env sockfd pending).val.fds = s.fds ++ [(sockfd, sockfd)] :=
    List.map_append
  rw [TcpServer.newConnection, if_pos hpasses, Checked.val_bind, fds_perform_established]
  exact hadded

end Descriptors

namespace Accepting

variable {T L : Type}

/-- A connection that is not destructed owns the descriptor of its socket and that of its
channel. -/
def Owns (s : Accepting T L) (i : Nat) (fd : Int) : Prop :=
  i ∉ s.destructed ∧ ∃ p, s.server.fds[i]? = some p ∧ (p.1 = fd ∨ p.2 = fd)

/-- Given to one connection, as its socket and its channel, or closed. -/
def Returned.Lawful (r : Returned) : Prop :=
  (r.given = [(r.connfd, r.connfd)] ∧ r.closed = false) ∨ (r.given = [] ∧ r.closed = true)

structure Lawful (s : Accepting T L) : Prop where
  returned : ∀ r ∈ s.returned, Returned.Lawful r
  separate : ∀ i j fd, s.Owns i fd → s.Owns j fd → i = j
  apart : ∀ i, ¬ s.Owns i s.acceptor.listenFd

/-- The reserve changes its descriptor; whatever was accepted in between is closed. -/
theorem recycle_spec (s : Accepting T L) (again reopened : Int) :
    (s.recycle again reopened).server = s.server ∧
      (s.recycle again reopened).destructed = s.destructed ∧
      (s.recycle again reopened).acceptor = { s.acceptor with idleFd := reopened } ∧
      ((s.recycle again reopened).returned = s.returned ∨
        (s.recycle again reopened).returned = s.returned ++ [⟨again, [], true⟩]) := by
  rw [recycle]
  by_cases hagain : 0 ≤ again
  · by_cases hreopened : 0 ≤ reopened
    · simp [hagain, hreopened, record, opened, close]
    · simp [hagain, hreopened, record, opened, close]
  · by_cases hreopened : 0 ≤ reopened
    · simp [hagain, hreopened, opened, close]
    · simp [hagain, hreopened, close]

theorem openFds_recycle {s : Accepting T L} {again : Int} (reopened : Int)
    (hagain : again ∉ s.openFds.erase s.acceptor.idleFd) :
    (s.recycle again reopened).openFds =
      if 0 ≤ reopened then insert reopened (s.openFds.erase s.acceptor.idleFd)
      else s.openFds.erase s.acceptor.idleFd := by
  have hback : (insert again (s.openFds.erase s.acceptor.idleFd)).erase again =
      s.openFds.erase s.acceptor.idleFd := Finset.erase_insert hagain
  rw [recycle]
  by_cases hpos : 0 ≤ again
  · by_cases hreopened : 0 ≤ reopened
    · simp [hpos, hreopened, record, opened, close, hback]
    · simp [hpos, hreopened, record, opened, close, hback]
  · by_cases hreopened : 0 ≤ reopened
    · simp [hpos, hreopened, opened, close]
    · simp [hpos, hreopened, close]

theorem returned_destruct (s : Accepting T L) (i : Nat) :
    (s.destruct i).returned = s.returned := by
  rw [destruct]
  cases s.server.connections[i]? with
  | none => rfl
  | some c => rfl

theorem forall_returned_append {s s' : Accepting T L} {r : Returned}
    (hreturned : s'.returned = s.returned ++ [r]) :
    (∀ x ∈ s'.returned, Returned.Lawful x) ↔
      (∀ x ∈ s.returned, Returned.Lawful x) ∧ Returned.Lawful r := by
  rw [hreturned]
  simp [or_imp, forall_and]

/-- Every descriptor in use is open and has one owner. -/
structure Linear (s : Accepting T L) : Prop where
  returned : ∀ r ∈ s.returned, Returned.Lawful r
  nonneg : ∀ fd ∈ s.openFds, 0 ≤ fd
  listen : s.acceptor.listenFd ∈ s.openFds
  idle : s.acceptor.idleFd = -1 ∨ s.acceptor.idleFd ∈ s.openFds
  idle_ne : s.acceptor.idleFd ≠ s.acceptor.listenFd
  same : ∀ (i : Nat) (p : Int × Int), s.server.fds[i]? = some p → p.2 = p.1
  owned : ∀ i fd, s.Owns i fd →
    fd ∈ s.openFds ∧ fd ≠ s.acceptor.listenFd ∧ fd ≠ s.acceptor.idleFd
  separate : ∀ i j fd, s.Owns i fd → s.Owns j fd → i = j

theorem Linear.lawful {s : Accepting T L} (h : s.Linear) : s.Lawful :=
  ⟨h.returned, h.separate, fun i howns => (h.owned i _ howns).2.1 rfl⟩

theorem Linear.free {s : Accepting T L} (h : s.Linear) {fd : Int} (hfree : Free s.openFds fd) :
    fd ≠ s.acceptor.listenFd ∧ fd ≠ s.acceptor.idleFd ∧ ∀ i, ¬ s.Owns i fd := by
  rcases hfree with ⟨hpos, hnew⟩
  refine ⟨fun heq => hnew (heq ▸ h.listen), ?_, fun i howns => hnew (h.owned i fd howns).1⟩
  intro heq
  rcases h.idle with hnone | hopen
  · omega
  · exact hnew (heq ▸ hopen)

theorem Linear.changed {s s' : Accepting T L} (h : s.Linear) (hfds : s'.server.fds = s.server.fds)
    (hdestructed : s'.destructed = s.destructed)
    (hlisten : s'.acceptor.listenFd = s.acceptor.listenFd)
    (hreturned : ∀ r ∈ s'.returned, Returned.Lawful r) (hnonneg : ∀ fd ∈ s'.openFds, 0 ≤ fd)
    (hopen : ∀ fd ∈ s.openFds, fd ≠ s.acceptor.idleFd → fd ∈ s'.openFds)
    (hidle : s'.acceptor.idleFd = -1 ∨ s'.acceptor.idleFd ∈ s'.openFds)
    (hapart : ∀ fd ∈ s.openFds, fd ≠ s.acceptor.idleFd → fd ≠ s'.acceptor.idleFd) :
    s'.Linear := by
  have howns : ∀ i fd, s'.Owns i fd → s.Owns i fd := by
    intro i fd howns
    rw [Owns, hfds, hdestructed] at howns
    exact howns
  refine ⟨hreturned, hnonneg, ?_, hidle, ?_, ?_, fun i fd hfd => ?_, fun i j fd hi hj => ?_⟩
  · rw [hlisten]
    exact hopen _ h.listen h.idle_ne.symm
  · rw [hlisten]
    exact (hapart _ h.listen h.idle_ne.symm).symm
  · rw [hfds]
    exact h.same
  · rcases h.owned i fd (howns i fd hfd) with ⟨hmem, hne, hneIdle⟩
    rw [hlisten]
    exact ⟨hopen fd hmem hneIdle, hne, hapart fd hmem hneIdle⟩
  · exact h.separate i j fd (howns i fd hi) (howns j fd hj)

theorem Linear.recycle {s : Accepting T L} (h : s.Linear) {answers : AcceptAnswers}
    {errno : AcceptErrno} (hresult : answers.result = .failed errno)
    (hanswers : s.Answers answers) :
    (s.recycle answers.again answers.reopened).Linear := by
  rw [Answers, hresult] at hanswers
  rcases hanswers with ⟨hagain, hreopened⟩
  have hclosed : ∀ fd ∈ s.openFds.erase s.acceptor.idleFd, 0 ≤ fd := fun fd hfd =>
    h.nonneg fd (Finset.mem_of_mem_erase hfd)
  have hagainNew : answers.again ∉ s.openFds.erase s.acceptor.idleFd := by
    rcases hagain with hnone | ⟨-, -, hnew⟩
    · intro hmem
      have hpos := hclosed _ hmem
      omega
    · exact hnew
  have hreopenedNew : answers.reopened ∉ s.openFds.erase s.acceptor.idleFd := by
    rcases hreopened with hnone | ⟨-, hnew⟩
    · intro hmem
      have hpos := hclosed _ hmem
      omega
    · exact hnew
  rcases s.recycle_spec answers.again answers.reopened with
    ⟨hserver, hdestructed, hacceptor, hreturned⟩
  have hidleFd : (s.recycle answers.again answers.reopened).acceptor.idleFd = answers.reopened := by
    rw [hacceptor]
  have hopenFds := openFds_recycle answers.reopened hagainNew
  refine h.changed (by rw [hserver]) hdestructed (by rw [hacceptor]) ?_ ?_ ?_ ?_ ?_
  · rcases hreturned with hsame | hmore
    · rw [hsame]
      exact h.returned
    · exact (forall_returned_append hmore).mpr ⟨h.returned, Or.inr ⟨rfl, rfl⟩⟩
  · intro fd hfd
    rw [hopenFds] at hfd
    split at hfd
    · rcases Finset.mem_insert.mp hfd with hfd | hfd
      · omega
      · exact hclosed fd hfd
    · exact hclosed fd hfd
  · intro fd hfd hne
    have hkept := Finset.mem_erase.mpr ⟨hne, hfd⟩
    rw [hopenFds]
    split
    · exact Finset.mem_insert_of_mem hkept
    · exact hkept
  · rw [hidleFd, hopenFds]
    rcases hreopened with hnone | ⟨hpos, -⟩
    · exact Or.inl hnone
    · rw [if_pos hpos]
      exact Or.inr (Finset.mem_insert_self _ _)
  · intro fd hfd hne
    rw [hidleFd]
    intro heq
    exact hreopenedNew (heq ▸ Finset.mem_erase.mpr ⟨hne, hfd⟩)

theorem Linear.destruct {s : Accepting T L} {i : Nat} (h : s.Linear)
    (hlive : i < s.server.connections.length ∧ i ∉ s.destructed) : (s.destruct i).Linear := by
  have hc := List.getElem?_eq_getElem hlive.1
  generalize s.server.connections[i] = c at hc
  have hdestruct : s.destruct i = { s.close c.sockfd with destructed := i :: s.destructed } := by
    rw [Accepting.destruct, hc]
  have hfds : s.server.fds[i]? = some (c.sockfd, c.conn.channel.fd) := by
    rw [TcpServer.fds, List.getElem?_map, hc]
    rfl
  have hmine : s.Owns i c.sockfd := ⟨hlive.2, _, hfds, Or.inl rfl⟩
  rcases h.owned i c.sockfd hmine with ⟨-, hlisten, hidle⟩
  have howns : ∀ j fd, (s.destruct i).Owns j fd → s.Owns j fd ∧ fd ≠ c.sockfd := by
    intro j fd howns
    rw [hdestruct] at howns
    rcases howns with ⟨hnot, p, hp, hor⟩
    rcases not_or.mp (fun hor => hnot (List.mem_cons.mpr hor)) with ⟨hne, hnot⟩
    have hold : s.Owns j fd := ⟨hnot, p, hp, hor⟩
    refine ⟨hold, fun heq => hne ?_⟩
    exact h.separate j i fd hold (heq ▸ hmine)
  have hkept : ∀ fd ∈ s.openFds, fd ≠ c.sockfd → fd ∈ (s.destruct i).openFds := by
    intro fd hfd hne
    rw [hdestruct]
    exact Finset.mem_erase.mpr ⟨hne, hfd⟩
  have hsame : (s.destruct i).acceptor = s.acceptor ∧ (s.destruct i).server = s.server ∧
      (s.destruct i).returned = s.returned := by
    rw [hdestruct]
    exact ⟨rfl, rfl, rfl⟩
  rcases hsame with ⟨hacceptor, hserver, hreturned⟩
  refine ⟨?_, fun fd hfd => ?_, ?_, ?_, ?_, ?_, fun j fd hfd => ?_, fun j k fd hj hk => ?_⟩
  · rw [hreturned]
    exact h.returned
  · rw [hdestruct] at hfd
    exact h.nonneg fd (Finset.mem_of_mem_erase hfd)
  · rw [hacceptor]
    exact hkept _ h.listen hlisten.symm
  · rw [hacceptor]
    exact h.idle.imp id fun hopen => hkept _ hopen hidle.symm
  · rw [hacceptor]
    exact h.idle_ne
  · rw [hserver]
    exact h.same
  · rcases howns j fd hfd with ⟨hold, hne⟩
    rcases h.owned j fd hold with ⟨hopen, hapart⟩
    rw [hacceptor]
    exact ⟨hkept fd hopen hne, hapart⟩
  · exact h.separate j k fd (howns j fd hj).1 (howns k fd hk).1

section Runs

variable [DecidableEq T] [DecidableEq L] {env : ServerEnv T L} {s s' : Accepting T L}
  {e : AcceptLabel T} {es : List (AcceptLabel T)} {acceptor : Acceptor} {openFds : Finset Int}
  {serverName : List Char} {pool : EventLoopThreadPool L} {hasWriteCompleteCb : Bool}

/-- An `accept` succeeds, and the callback is set. -/
def handsOver (env : ServerEnv T L) (s : Accepting T L) : AcceptLabel T → Bool
  | .readable t ⟨.accepted _, _, _, _⟩ =>
      env.passes s.server.pool.baseLoop t && s.acceptor.hasNewConnectionCb
  | _ => false

/-- A step in which no accepted descriptor is handed to the callback. -/
def UnhandedStep (env : ServerEnv T L) (s : Accepting T L) (e : AcceptLabel T)
    (s' : Accepting T L) : Prop :=
  AcceptStep env handed s e s' ∧ s.handsOver env e = false

theorem returned_handover {t : T} {connfd : Int} {pending : List UInt8} {sockfd : Int}
    (hpasses : env.passes s.server.pool.baseLoop t = true) :
    (s.newConnectionCb env connfd sockfd pending t).returned =
      s.returned ++ [⟨connfd, [(sockfd, sockfd)], false⟩] := by
  rw [newConnectionCb, fds_newConnection hpasses]
  simp [record]

theorem handleReadWith_cases (env : ServerEnv T L) (handed : Int → Int → Int)
    (s : Accepting T L) (t : T) (answers : AcceptAnswers) :
    (s.handsOver env (.readable t answers) = false ∧
        (s.handleReadWith env handed t answers = s ∨
          s.handleReadWith env handed t answers = { s with server := s.server.abort })) ∨
      (∃ connfd, answers.result = .accepted connfd ∧
        s.handsOver env (.readable t answers) = true ∧
        env.passes s.server.pool.baseLoop t = true ∧
        s.handleReadWith env handed t answers = (s.opened connfd).newConnectionCb env connfd
          (handed s.acceptor.listenFd connfd) answers.pending t) ∨
      (∃ connfd, answers.result = .accepted connfd ∧
        s.handsOver env (.readable t answers) = false ∧
        s.handleReadWith env handed t answers =
          ((s.opened connfd).close connfd).record ⟨connfd, [], true⟩) ∨
      (∃ errno, answers.result = .failed errno ∧
        s.handsOver env (.readable t answers) = false ∧
        s.handleReadWith env handed t answers = s.recycle answers.again answers.reopened) := by
  rcases answers with ⟨result, again, reopened, pending⟩
  cases hpasses : env.passes s.server.pool.baseLoop t with
  | false =>
      left
      cases result with
      | accepted connfd => simp [handsOver, handleReadWith, hpasses]
      | failed errno => simp [handsOver, handleReadWith, hpasses]
  | true =>
      cases result with
      | accepted connfd =>
          right
          cases hcb : s.acceptor.hasNewConnectionCb with
          | true =>
              left
              exact ⟨connfd, rfl, by simp [handsOver, hpasses, hcb], rfl,
                by simp [handleReadWith, hpasses, opened, hcb]⟩
          | false =>
              right
              left
              exact ⟨connfd, rfl, by simp [handsOver, hcb],
                by simp [handleReadWith, hpasses, opened, hcb]⟩
      | failed errno =>
          by_cases hfatal : errno.isFatal = true
          · left
            simp [handsOver, handleReadWith, hpasses, hfatal]
          · by_cases hemfile : errno = .emfile
            · right
              right
              right
              subst hemfile
              exact ⟨.emfile, rfl, rfl, by simp [handleReadWith, hpasses, AcceptErrno.isFatal]⟩
            · left
              simp [handsOver, handleReadWith, hpasses, hfatal, hemfile]

end Runs

end Accepting

section Runs

open Accepting

variable {T L : Type} [DecidableEq T] [DecidableEq L] {env : ServerEnv T L} {s s' : Accepting T L}
  {e : AcceptLabel T} {es : List (AcceptLabel T)} {acceptor : Acceptor} {openFds : Finset Int}
  {serverName : List Char} {pool : EventLoopThreadPool L} {hasWriteCompleteCb : Bool}

theorem AcceptStep.returned_iff (h : AcceptStep env handed s e s') :
    (∀ r ∈ s'.returned, Returned.Lawful r) ↔
      (∀ r ∈ s.returned, Returned.Lawful r) ∧ s.handsOver env e = false := by
  rcases h with ⟨-, henabled, hs'⟩
  subst hs'
  have hclosed : ∀ fd, Returned.Lawful ⟨fd, [], true⟩ := fun _ => Or.inr ⟨rfl, rfl⟩
  cases e with
  | destruct i =>
      show (∀ r ∈ (s.destruct i).returned, _) ↔ _
      rw [returned_destruct]
      exact (and_iff_left rfl).symm
  | readable t answers =>
      show (∀ r ∈ (s.handleReadWith env handed t answers).returned, _) ↔ _
      rcases handleReadWith_cases env handed s t answers with
        ⟨hnot, hsame | habort⟩ | ⟨connfd, hresult, hover, hpasses, hval⟩ |
        ⟨connfd, hresult, hnot, hval⟩ | ⟨errno, hresult, hnot, hval⟩
      · rw [hsame, hnot]
        exact (and_iff_left rfl).symm
      · rw [habort, hnot]
        exact (and_iff_left rfl).symm
      · have hreturned : ((s.opened connfd).newConnectionCb env connfd s.acceptor.listenFd
            answers.pending t).returned = s.returned ++ [_] := returned_handover hpasses
        rw [hval, hover]
        show (∀ r ∈ ((s.opened connfd).newConnectionCb env connfd s.acceptor.listenFd
          answers.pending t).returned, _) ↔ _
        rw [forall_returned_append hreturned]
        have hfree := henabled
        rw [Enabled, Answers, hresult] at hfree
        rcases hfree with ⟨hlisten, -, hnew⟩
        refine and_congr_right fun _ => iff_of_false ?_ Bool.noConfusion
        intro hlawful
        rcases hlawful with ⟨hgiven, -⟩ | ⟨hgiven, -⟩
        · have hfd : s.acceptor.listenFd = connfd := (Prod.mk.inj (List.cons.inj hgiven).1).1
          exact hnew (hfd ▸ hlisten)
        · cases hgiven
      · rw [hval, hnot, forall_returned_append (s := s) rfl]
        exact and_congr_right fun _ => iff_of_true (hclosed connfd) rfl
      · rw [hval, hnot]
        rcases (s.recycle_spec answers.again answers.reopened).2.2.2 with hsame | hmore
        · rw [hsame]
          exact (and_iff_left rfl).symm
        · rw [forall_returned_append hmore]
          exact and_congr_right fun _ => iff_of_true (hclosed answers.again) rfl

theorem Accepting.UnhandedStep.connections (h : UnhandedStep env s e s')
    (hs : s.server.connections = []) : s'.server.connections = [] := by
  rcases h with ⟨⟨-, -, hs'⟩, hnot⟩
  subst hs'
  cases e with
  | destruct i =>
      show (s.destruct i).server.connections = []
      rw [destruct, hs]
      exact hs
  | readable t answers =>
      show (s.handleReadWith env handed t answers).server.connections = []
      rcases handleReadWith_cases env handed s t answers with
        ⟨-, hsame | habort⟩ | ⟨connfd, -, hover, -, -⟩ | ⟨connfd, -, -, hval⟩ | ⟨errno, -, -, hval⟩
      · rw [hsame]
        exact hs
      · rw [habort]
        exact hs
      · rw [hover] at hnot
        cases hnot
      · rw [hval]
        exact hs
      · rw [hval, (s.recycle_spec answers.again answers.reopened).1]
        exact hs

/-- Descriptors are owned as they should be in exactly those runs in which none is handed over. -/
theorem lawful_iff_unhanded
    (h : Run (AcceptStep env handed)
      (listening acceptor (.create serverName pool hasWriteCompleteCb) openFds) es s) :
    s.Lawful ↔ Run (UnhandedStep env)
      (listening acceptor (.create serverName pool hasWriteCompleteCb) openFds) es s := by
  have hrecords : (∀ r ∈ s.returned, Returned.Lawful r) ↔ Run (UnhandedStep env)
      (listening acceptor (.create serverName pool hasWriteCompleteCb) openFds) es s :=
    h.iff_forall_good (fun _ _ _ _ h h' => h.2.2.trans h'.2.2.symm) (fun _ _ _ _ _ => trivial)
      (fun _ _ _ _ hstep => hstep.returned_iff) trivial fun _ hr => absurd hr List.not_mem_nil
  constructor
  · intro hlawful
    exact hrecords.mp hlawful.returned
  · intro hrun
    have hnone : s.server.connections = [] :=
      hrun.invariant (I := fun s => s.server.connections = [])
        (fun _ _ _ hs hstep => hstep.connections hs) rfl
    have howns : ∀ i fd, ¬ s.Owns i fd := by
      intro i fd howns
      rcases howns with ⟨-, p, hp, -⟩
      rw [TcpServer.fds, hnone] at hp
      cases hp
    exact ⟨hrecords.mpr hrun, fun i j fd hi => absurd hi (howns i fd),
      fun i => howns i s.acceptor.listenFd⟩

theorem Accepting.Linear.handover (h : s.Linear) {t : T} {connfd : Int} {pending : List UInt8}
    (hpasses : env.passes s.server.pool.baseLoop t = true) (hfree : Free s.openFds connfd) :
    ((s.opened connfd).newConnectionCb env connfd connfd pending t).Linear := by
  have hreturned : ((s.opened connfd).newConnectionCb env connfd connfd pending t).returned =
      s.returned ++ [⟨connfd, [(connfd, connfd)], false⟩] := returned_handover hpasses
  have hfds : ((s.opened connfd).newConnectionCb env connfd connfd pending t).server.fds =
      s.server.fds ++ [(connfd, connfd)] := fds_newConnection hpasses
  have hsplit : ∀ i p, (s.server.fds ++ [(connfd, connfd)])[i]? = some p →
      s.server.fds[i]? = some p ∨ (i = s.server.fds.length ∧ p = (connfd, connfd)) := by
    intro i p hp
    by_cases hlt : i < s.server.fds.length
    · rw [List.getElem?_append_left hlt] at hp
      exact Or.inl hp
    · have hlast : i = s.server.fds.length := by
        have hle := (List.getElem?_eq_some_iff.mp hp).1
        rw [List.length_append, List.length_singleton] at hle
        omega
      rw [hlast, List.getElem?_concat_length] at hp
      exact Or.inr ⟨hlast, (Option.some.inj hp).symm⟩
  have howns : ∀ i fd, ((s.opened connfd).newConnectionCb env connfd connfd pending t).Owns i fd →
      s.Owns i fd ∨ (i = s.server.fds.length ∧ fd = connfd) := by
    intro i fd howns
    rcases howns with ⟨hlive, p, hp, hor⟩
    rw [hfds] at hp
    rcases hsplit i p hp with hold | ⟨hlast, hnew⟩
    · exact Or.inl ⟨hlive, p, hold, hor⟩
    · subst hnew
      exact Or.inr ⟨hlast, (hor.elim id id).symm⟩
  rcases h.free hfree with ⟨hlisten, hidle, hnone⟩
  refine ⟨?_, ?_, Finset.mem_insert_of_mem h.listen, h.idle.imp id Finset.mem_insert_of_mem,
    h.idle_ne, ?_, ?_, ?_⟩
  · exact (forall_returned_append hreturned).mpr ⟨h.returned, Or.inl ⟨rfl, rfl⟩⟩
  · intro fd hfd
    rcases Finset.mem_insert.mp hfd with hfd | hfd
    · rw [hfd]
      exact hfree.1
    · exact h.nonneg fd hfd
  · intro i p hp
    rw [hfds] at hp
    rcases hsplit i p hp with hold | ⟨-, hnew⟩
    · exact h.same i p hold
    · rw [hnew]
  · intro i fd hfd
    rcases howns i fd hfd with hold | ⟨-, hnew⟩
    · rcases h.owned i fd hold with ⟨hopen, hapart⟩
      exact ⟨Finset.mem_insert_of_mem hopen, hapart⟩
    · rw [hnew]
      exact ⟨Finset.mem_insert_self _ _, hlisten, hidle⟩
  · intro i j fd hi hj
    rcases howns i fd hi with hi | ⟨hi, hnew⟩
    · rcases howns j fd hj with hj | ⟨-, hnew⟩
      · exact h.separate i j fd hi hj
      · exact absurd (hnew ▸ hi) (hnone i)
    · rcases howns j fd hj with hj | ⟨hj, -⟩
      · exact absurd (hnew ▸ hj) (hnone j)
      · exact hi.trans hj.symm

theorem AcceptStep.linear (h : AcceptStep env (fun _ connfd => connfd) s e s') (hs : s.Linear) :
    s'.Linear := by
  rcases h with ⟨-, henabled, hs'⟩
  subst hs'
  cases e with
  | destruct i => exact hs.destruct henabled
  | readable t answers =>
      show (s.handleReadWith env (fun _ connfd => connfd) t answers).Linear
      rcases handleReadWith_cases env (fun _ connfd => connfd) s t answers with
        ⟨-, hsame | habort⟩ | ⟨connfd, hresult, -, hpasses, hval⟩ | ⟨connfd, hresult, -, hval⟩ |
        ⟨errno, hresult, -, hval⟩
      · rw [hsame]
        exact hs
      · rw [habort]
        exact hs.changed rfl rfl rfl hs.returned hs.nonneg (fun _ hfd _ => hfd) hs.idle
          fun _ _ hne => hne
      · rw [Enabled, Answers, hresult] at henabled
        rw [hval]
        exact hs.handover hpasses henabled.2
      · rw [Enabled, Answers, hresult] at henabled
        rw [hval]
        have hopenFds : (((s.opened connfd).close connfd).record ⟨connfd, [], true⟩).openFds =
            s.openFds := Finset.erase_insert henabled.2.2
        refine hs.changed rfl rfl rfl ?_ ?_ ?_ ?_ fun _ _ hne => hne
        · exact (forall_returned_append rfl).mpr ⟨hs.returned, Or.inr ⟨rfl, rfl⟩⟩
        · rw [hopenFds]
          exact hs.nonneg
        · rw [hopenFds]
          exact fun _ hfd _ => hfd
        · rw [hopenFds]
          exact hs.idle
      · rw [hval]
        exact hs.recycle hresult henabled

/-- If `handleRead` handed over the accepted descriptor, each would have one owner in every run. -/
theorem lawful_of_handing_accepted (hnonneg : ∀ fd ∈ openFds, 0 ≤ fd)
    (hlisten : acceptor.listenFd ∈ openFds) (hidle : acceptor.idleFd ∈ openFds)
    (hne : acceptor.idleFd ≠ acceptor.listenFd)
    (h : Run (AcceptStep env fun _ connfd => connfd)
      (listening acceptor (.create serverName pool hasWriteCompleteCb) openFds) es s) :
    s.Lawful := by
  have hstart : (listening acceptor (.create serverName pool hasWriteCompleteCb : TcpServer T L)
      openFds).Linear := by
    have hnone : ∀ i fd, ¬ (listening acceptor
        (.create serverName pool hasWriteCompleteCb : TcpServer T L) openFds).Owns i fd := by
      intro i fd howns
      rcases howns with ⟨-, p, hp, -⟩
      cases hp
    exact ⟨fun _ hr => absurd hr List.not_mem_nil, hnonneg, hlisten, Or.inr hidle, hne,
      fun i p hp => absurd ⟨List.not_mem_nil, p, hp, Or.inl rfl⟩ (hnone i p.1),
      fun i fd howns => absurd howns (hnone i fd), fun i _ fd howns => absurd howns (hnone i fd)⟩
  exact (h.invariant (fun _ _ _ hs hstep => hstep.linear hs) hstart).lawful

/-- An acceptor listens on 3, with 4 in reserve. -/
def acceptorOnThree (hasNewConnectionCb : Bool) : Acceptor := ⟨3, 4, hasNewConnectionCb⟩

/-- 7 is accepted, and the new connection is given 3. -/
theorem listening_given : ∃ s : Accepting Nat Nat,
    Run (AcceptStep (.code id true) handed)
      (listening (acceptorOnThree true) (.create [] (.ofLoops 0 []) false) {3, 4})
      [.readable 0 ⟨.accepted 7, -1, -1, []⟩] s ∧
      s.returned = [⟨7, [(3, 3)], false⟩] ∧ s.Owns 0 s.acceptor.listenFd ∧ ¬ s.Lawful := by
  have hanswers : (listening (acceptorOnThree true)
      (.create [] (.ofLoops 0 []) false : TcpServer Nat Nat) {3, 4}).Answers
      ⟨.accepted 7, -1, -1, []⟩ := by
    refine ⟨by decide, by decide, by decide⟩
  have hstep : AcceptStep (.code id true) handed (listening (acceptorOnThree true)
      (.create [] (.ofLoops 0 []) false : TcpServer Nat Nat) {3, 4})
      (.readable 0 ⟨.accepted 7, -1, -1, []⟩) _ := ⟨rfl, hanswers, rfl⟩
  refine ⟨_, Run.single hstep, rfl, ⟨List.not_mem_nil, _, rfl, Or.inl rfl⟩, ?_⟩
  intro h
  exact h.apart 0 ⟨List.not_mem_nil, _, rfl, Or.inl rfl⟩

/-- Without a callback, 7 is closed; then the descriptors are exhausted, and the reserve is used. -/
theorem lawful_closed : ∃ s : Accepting Nat Nat,
    s.returned = [⟨7, [], true⟩, ⟨4, [], true⟩] ∧ s.Lawful := by
  have hfirst : UnhandedStep (.code id true) (listening (acceptorOnThree false)
      (.create [] (.ofLoops 0 []) false : TcpServer Nat Nat) {3, 4})
      (.readable 0 ⟨.accepted 7, -1, -1, []⟩) _ :=
    ⟨⟨rfl, ⟨by decide, by decide, by decide⟩, rfl⟩, rfl⟩
  have hsecond : UnhandedStep (.code id true) ((listening (acceptorOnThree false)
      (.create [] (.ofLoops 0 []) false : TcpServer Nat Nat) {3, 4}).apply (.code id true) handed
      (.readable 0 ⟨.accepted 7, -1, -1, []⟩)) (.readable 0 ⟨.failed .emfile, 4, 4, []⟩) _ :=
    ⟨⟨rfl, ⟨Or.inr ⟨by decide, by decide, by decide⟩, Or.inr ⟨by decide, by decide⟩⟩, rfl⟩, rfl⟩
  have hrun := (Run.single hfirst).snoc hsecond
  exact ⟨_, rfl, (lawful_iff_unhanded (hrun.mono fun _ _ _ h => h.1)).mpr hrun⟩

end Runs

end LearnMuduo
