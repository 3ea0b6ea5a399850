import LearnMuduo.Framework.Run
import LearnMuduo.Net.Loop.Tasks
import Mathlib.Data.List.Nodup
import Mathlib.Data.List.Perm.Subperm

/-!
# Starting a server

Any number of threads call `TcpServer::start`. A call tests `m_started`, starts the pool and has the
base loop listen; each assertion, each access to a member of the server, of the pool or of the
acceptor, and each new loop thread is one step. An assertion that fails is noted and the call goes
on; a failed `assertInCurrentThread` ends the program.
-/

namespace LearnMuduo

open Framework

/-- What a call of `start` does next, in the order of the text. -/
inductive StartStage
  /-- `m_started.load()` -/
  | loading
  /-- `assert(!m_started)` of the pool -/
  | asserting
  /-- `m_baseLoop->assertInCurrentThread()` -/
  | entering
  /-- `m_started = true` of the pool -/
  | setting
  /-- the round `i` of the pool's loop -/
  | starting (i : Int)
  /-- `if(m_numThreads == 0 && cb) cb(m_baseLoop)` -/
  | initialising
  /-- `assert(!m_acceptor->getListening())` -/
  | checking
  | posting
  /-- in `listen`, which `postTask_mt` executes at once -/
  | listening
  | returned
  deriving DecidableEq, Repr

/-- The pool was started by the call. -/
def StartStage.startedPool : StartStage → Bool
  | .loading => false
  | .asserting => false
  | .entering => false
  | .setting => false
  | _ => true

/-- The call has asked the acceptor to listen. -/
def StartStage.asked : StartStage → Bool
  | .listening => true
  | .returned => true
  | _ => false

/-- A server, its pool and its acceptor, and the calls of `start`, in the order in which they were
made. A loop of the pool is named by the call and by the round that made it. `listenTasks`: how many
tasks of the base loop are still to listen. `failed`: whose assertions failed. -/
structure StartingServer (K : Type) where
  started : Bool
  poolStarted : Bool
  numThreads : Int
  hasInitCb : Bool
  loops : List (K × Int)
  getListening : Bool
  listenTasks : Nat
  aborted : Bool
  calls : K → Option StartStage
  begun : List K
  failed : List K
  poolStarts : List K
  initialised : List K
  asked : List K

inductive ServerStartLabel (K : Type)
  | call (k : K)
  | advance (k : K)
  | runListen
  deriving DecidableEq, Repr

namespace StartingServer

variable {K : Type}

def constructed (numThreads : Int) (hasInitCb : Bool) : StartingServer K where
  started := false
  poolStarted := false
  numThreads := numThreads
  hasInitCb := hasInitCb
  loops := []
  getListening := false
  listenTasks := 0
  aborted := false
  calls := fun _ => none
  begun := []
  failed := []
  poolStarts := []
  initialised := []
  asked := []

def check (s : StartingServer K) (k : K) (condition : Bool) : StartingServer K :=
  { s with failed := if condition then s.failed else s.failed ++ [k] }

/-- `Acceptor::listen` -/
def listen (s : StartingServer K) (inLoop : Bool) : StartingServer K :=
  if inLoop then { s with getListening := true } else { s with aborted := true }

variable [DecidableEq K]

def goTo (s : StartingServer K) (k : K) (stage : StartStage) : StartingServer K :=
  { s with calls := Function.update s.calls k (some stage) }

def call (s : StartingServer K) (k : K) : StartingServer K :=
  { s with begun := s.begun ++ [k] }.goTo k .loading

/-- The next step of the call `k`; `inLoop` is what `isInLoopThread` of the base loop answers it. -/
def advance (s : StartingServer K) (inLoop : Bool) (k : K) : StartStage → StartingServer K
  | .loading => s.goTo k (if s.started then .returned else .asserting)
  | .asserting => (s.check k !s.poolStarted).goTo k .entering
  | .entering =>
      if inLoop then s.goTo k .setting else { s.check k false with aborted := true }
  | .setting =>
      { s with poolStarted := true, poolStarts := s.poolStarts ++ [k] }.goTo k (.starting 0)
  | .starting i =>
      if i < s.numThreads then { s with loops := s.loops ++ [(k, i)] }.goTo k (.starting (i + 1))
      else s.goTo k .initialising
  | .initialising =>
      let initialised :=
        if s.numThreads = 0 ∧ s.hasInitCb = true then s.initialised ++ [k] else s.initialised
      { s with initialised := initialised }.goTo k .checking
  | .checking => (s.check k !s.getListening).goTo k .posting
  | .posting =>
      let s := { s with asked := s.asked ++ [k] }
      if inLoop then s.goTo k .listening
      else { s with listenTasks := s.listenTasks + 1 }.goTo k .returned
  | .listening => (s.listen inLoop).goTo k .returned
  | .returned => s

/-- The steps that are possible. The calls are made by the threads `thread`, and the base loop runs
on `threadId`. -/
def next {T : Type} (inLoop : T → Bool) (threadId : T) (thread : K → T) (s : StartingServer K) :
    ServerStartLabel K → Option (StartingServer K)
  | .call k => if s.aborted = false ∧ s.calls k = none then some (s.call k) else none
  | .advance k =>
      match s.calls k with
      | none => none
      | some stage =>
          if s.aborted = false ∧ stage ≠ .returned then
            some (s.advance (inLoop (thread k)) k stage)
          else none
  | .runListen =>
      if s.aborted = false ∧ 0 < s.listenTasks then
        some ({ s with listenTasks := s.listenTasks - 1 }.listen (inLoop threadId))
      else none

end StartingServer

def ServerStartStep {T K : Type} [DecidableEq K] (inLoop : T → Bool) (threadId : T)
    (thread : K → T) (s : StartingServer K) (e : ServerStartLabel K) (s' : StartingServer K) :
    Prop :=
  s.next inLoop threadId thread e = some s'

namespace StartingServer

variable {T K : Type}

/-- Every call that was made has returned. -/
def Finished (s : StartingServer K) : Prop := ∀ k ∈ s.begun, s.calls k = some .returned

/-- The pool is started once and the acceptor is asked to listen once, and the calls after the first
one fail no assertion and make no loop. -/
structure Idempotent (s : StartingServer K) : Prop where
  startsPool : s.poolStarts.length ≤ 1
  asks : s.asked.length ≤ 1
  fails : ∀ k ∈ s.failed, s.begun.head? = some k
  makes : ∀ loop ∈ s.loops, s.begun.head? = some loop.1
  finished : s.begun ≠ [] → s.Finished → s.poolStarts.length = 1 ∧ s.asked.length = 1

/-- The list has exactly the calls that have come so far, each once. -/
structure Stamped (reached : StartStage → Bool) (calls : K → Option StartStage)
    (history : List K) : Prop where
  nodup : history.Nodup
  mem_iff : ∀ k, k ∈ history ↔ (calls k).any reached = true

/-- The histories agree with the stages of the calls, and `m_started` was never set. -/
structure Accounted (s : StartingServer K) : Prop where
  started : s.started = false
  begun : Stamped (fun _ => true) s.calls s.begun
  poolStarts : Stamped StartStage.startedPool s.calls s.poolStarts
  asked : Stamped StartStage.asked s.calls s.asked
  failed : ∀ k ∈ s.failed, k ∈ s.begun
  loops : ∀ loop ∈ s.loops, loop.1 ∈ s.begun

section Histories

variable {reached : StartStage → Bool} {calls : K → Option StartStage} {history : List K} {k : K}
  {stage : StartStage}

theorem Stamped.nil : Stamped reached (fun _ : K => none) [] :=
  ⟨List.nodup_nil, fun _ => by simp⟩

variable [DecidableEq K]

theorem Stamped.keep (h : Stamped reached calls history)
    (hsame : (calls k).any reached = reached stage) :
    Stamped reached (Function.update calls k (some stage)) history := by
  refine ⟨h.nodup, fun k' => ?_⟩
  by_cases hne : k' = k
  · subst hne
    rw [h.mem_iff, hsame, Function.update_self, Option.any_some]
  · rw [h.mem_iff, Function.update_of_ne hne]

theorem Stamped.add (h : Stamped reached calls history) (hnew : (calls k).any reached = false)
    (hreached : reached stage = true) :
    Stamped reached (Function.update calls k (some stage)) (history ++ [k]) := by
  have hnot : k ∉ history := by simp [h.mem_iff, hnew]
  refine ⟨?_, fun k' => ?_⟩
  · simpa using h.nodup.concat hnot
  · by_cases hne : k' = k
    · subst hne
      simp [hreached]
    · simp [hne, h.mem_iff]

end Histories

section Steps

variable [DecidableEq K] {inLoop : T → Bool} {threadId : T} {thread : K → T}
  {s s' : StartingServer K} {k : K} {stage : StartStage}

omit [DecidableEq K] in
theorem Accounted.mem_begun (h : Accounted s) (hk : s.calls k = some stage) : k ∈ s.begun := by
  rw [h.begun.mem_iff, hk]
  rfl

theorem Accounted.goTo (h : Accounted s) (hk : s.calls k = some stage) {stage' : StartStage}
    (hstarted : stage.startedPool = stage'.startedPool) (hasked : stage.asked = stage'.asked) :
    Accounted (s.goTo k stage') where
  started := h.started
  begun := h.begun.keep (by rw [hk]; rfl)
  poolStarts := h.poolStarts.keep (by rw [hk]; exact hstarted)
  asked := h.asked.keep (by rw [hk]; exact hasked)
  failed := h.failed
  loops := h.loops

omit [DecidableEq K] in
theorem Accounted.check (h : Accounted s) (hk : k ∈ s.begun) (condition : Bool) :
    Accounted (s.check k condition) := by
  refine ⟨h.started, h.begun, h.poolStarts, h.asked, ?_, h.loops⟩
  cases condition with
  | true => exact h.failed
  | false => exact List.forall_mem_append.mpr ⟨h.failed, List.forall_mem_singleton.mpr hk⟩

omit [DecidableEq K] in
theorem Accounted.listen (h : Accounted s) (answer : Bool) : Accounted (s.listen answer) := by
  cases answer with
  | true => exact ⟨h.started, h.begun, h.poolStarts, h.asked, h.failed, h.loops⟩
  | false => exact ⟨h.started, h.begun, h.poolStarts, h.asked, h.failed, h.loops⟩

omit [DecidableEq K] in
theorem calls_listen (answer : Bool) : (s.listen answer).calls = s.calls := by
  cases answer <;> rfl

theorem Accounted.call (h : Accounted s) (hk : s.calls k = none) : Accounted (s.call k) where
  started := h.started
  begun := h.begun.add (by rw [hk]; rfl) rfl
  poolStarts := h.poolStarts.keep (by rw [hk]; rfl)
  asked := h.asked.keep (by rw [hk]; rfl)
  failed := fun k' hk' => List.mem_append_left _ (h.failed k' hk')
  loops := fun loop hloop => List.mem_append_left _ (h.loops loop hloop)

theorem Accounted.advance (h : Accounted s) (hk : s.calls k = some stage) (answer : Bool) :
    Accounted (s.advance answer k stage) := by
  have hbegun := h.mem_begun hk
  cases stage with
  | loading =>
      simp only [StartingServer.advance, h.started, Bool.false_eq_true, if_false]
      exact h.goTo hk rfl rfl
  | asserting => exact (h.check hbegun _).goTo hk rfl rfl
  | entering =>
      cases answer with
      | true => exact h.goTo hk rfl rfl
      | false =>
          have hcheck := h.check hbegun false
          exact ⟨hcheck.started, hcheck.begun, hcheck.poolStarts, hcheck.asked, hcheck.failed,
            hcheck.loops⟩
  | setting =>
      refine ⟨h.started, h.begun.keep (by rw [hk]; rfl), ?_, h.asked.keep (by rw [hk]; rfl),
        h.failed, h.loops⟩
      exact h.poolStarts.add (by rw [hk]; rfl) rfl
  | starting i =>
      rw [StartingServer.advance]
      split
      · refine ⟨h.started, h.begun.keep (by rw [hk]; rfl), h.poolStarts.keep (by rw [hk]; rfl),
          h.asked.keep (by rw [hk]; rfl), h.failed, ?_⟩
        exact List.forall_mem_append.mpr ⟨h.loops, List.forall_mem_singleton.mpr hbegun⟩
      · exact h.goTo hk rfl rfl
  | initialising =>
      exact ⟨h.started, h.begun.keep (by rw [hk]; rfl), h.poolStarts.keep (by rw [hk]; rfl),
        h.asked.keep (by rw [hk]; rfl), h.failed, h.loops⟩
  | checking => exact (h.check hbegun _).goTo hk rfl rfl
  | posting =>
      cases answer with
      | true =>
          exact ⟨h.started, h.begun.keep (by rw [hk]; rfl), h.poolStarts.keep (by rw [hk]; rfl),
            h.asked.add (by rw [hk]; rfl) rfl, h.failed, h.loops⟩
      | false =>
          exact ⟨h.started, h.begun.keep (by rw [hk]; rfl), h.poolStarts.keep (by rw [hk]; rfl),
            h.asked.add (by rw [hk]; rfl) rfl, h.failed, h.loops⟩
  | listening =>
      have hcalls : (s.listen answer).calls k = some .listening := by rw [calls_listen, hk]
      exact (h.listen answer).goTo hcalls rfl rfl
  | returned => exact h

theorem Accounted.step (h : Accounted s) {e : ServerStartLabel K}
    (hstep : ServerStartStep inLoop threadId thread s e s') : Accounted s' := by
  rw [ServerStartStep] at hstep
  cases e with
  | call k =>
      rw [next] at hstep
      split at hstep
      · rename_i hcond
        cases hstep
        exact h.call hcond.2
      · cases hstep
  | advance k =>
      rw [next] at hstep
      cases hk : s.calls k with
      | none =>
          rw [hk] at hstep
          cases hstep
      | some stage =>
          simp only [hk] at hstep
          split at hstep
          · cases hstep
            exact h.advance hk _
          · cases hstep
  | runListen =>
      rw [next] at hstep
      split at hstep
      · cases hstep
        have hpopped : Accounted { s with listenTasks := s.listenTasks - 1 } :=
          ⟨h.started, h.begun, h.poolStarts, h.asked, h.failed, h.loops⟩
        exact hpopped.listen _
      · cases hstep

omit [DecidableEq K] in
theorem accounted_constructed (numThreads : Int) (hasInitCb : Bool) :
    Accounted (constructed numThreads hasInitCb : StartingServer K) where
  started := rfl
  begun := Stamped.nil
  poolStarts := Stamped.nil
  asked := Stamped.nil
  failed := fun _ hk => absurd hk List.not_mem_nil
  loops := fun _ hloop => absurd hloop List.not_mem_nil

omit [DecidableEq K] in
theorem Stamped.length_eq {reached : StartStage → Bool} {history : List K} (h : Accounted s)
    (hstamped : Stamped reached s.calls history) (hreached : reached .returned = true)
    (hfinished : s.Finished) : history.length = s.begun.length := by
  apply List.Perm.length_eq
  rw [List.perm_ext_iff_of_nodup hstamped.nodup h.begun.nodup]
  intro k
  constructor
  · intro hk
    rw [hstamped.mem_iff] at hk
    obtain ⟨stage, hstage, _⟩ := (Option.any_eq_true _ _).mp hk
    exact h.mem_begun hstage
  · intro hk
    rw [hstamped.mem_iff, hfinished k hk]
    exact hreached

omit [DecidableEq K] in
theorem Stamped.length_le {reached : StartStage → Bool} {history : List K} (h : Accounted s)
    (hstamped : Stamped reached s.calls history) : history.length ≤ s.begun.length := by
  have hsub : history ⊆ s.begun := by
    intro k hk
    rw [hstamped.mem_iff] at hk
    obtain ⟨stage, hstage, _⟩ := (Option.any_eq_true _ _).mp hk
    exact h.mem_begun hstage
  exact (hstamped.nodup.subperm hsub).length_le

omit [DecidableEq K] in
theorem head_of_mem {l : List K} (hlen : l.length ≤ 1) (hk : k ∈ l) : l.head? = some k := by
  cases l with
  | nil => exact absurd hk List.not_mem_nil
  | cons a l =>
      have hnil : l = [] := List.length_eq_zero_iff.mp (by simpa using hlen)
      subst hnil
      rw [List.mem_singleton.mp hk]
      rfl

omit [DecidableEq K] in
theorem Accounted.idempotent (h : Accounted s) (hlen : s.begun.length ≤ 1) : s.Idempotent where
  startsPool := Nat.le_trans (h.poolStarts.length_le h) hlen
  asks := Nat.le_trans (h.asked.length_le h) hlen
  fails := fun k hk => head_of_mem hlen (h.failed k hk)
  makes := fun loop hloop => head_of_mem hlen (h.loops loop hloop)
  finished := by
    intro hbegun hfinished
    have hpos := List.length_pos_iff.mpr hbegun
    have hstarts := h.poolStarts.length_eq h rfl hfinished
    have hasks := h.asked.length_eq h rfl hfinished
    omega

/-- Starting is idempotent as long as nobody does it twice, and once two calls have returned it was
not. -/
theorem idempotent_iff_one_call {numThreads : Int} {hasInitCb : Bool}
    {es : List (ServerStartLabel K)}
    (hrun : Run (ServerStartStep inLoop threadId thread) (constructed numThreads hasInitCb) es s) :
    (s.begun.length ≤ 1 → s.Idempotent) ∧
      (s.Finished → (s.Idempotent ↔ s.begun.length ≤ 1)) := by
  have h : Accounted s :=
    hrun.invariant (fun _ _ _ h hstep => h.step hstep) (accounted_constructed _ _)
  refine ⟨h.idempotent, fun hfinished => ⟨fun hidempotent => ?_, h.idempotent⟩⟩
  rw [← h.poolStarts.length_eq h rfl hfinished]
  exact hidempotent.startsPool

end Steps

/-- A call on thread 1, and all that comes of it, with one loop for the pool. -/
def wholeCall (k : Nat) : List (ServerStartLabel Nat) := .call k :: List.replicate 10 (.advance k)

theorem idempotent_wholeCall : ∃ s,
    Run (ServerStartStep (isInLoopThread 0) 0 fun _ => 1) (constructed 1 false) (wholeCall 1) s ∧
      s.poolStarts = [1] ∧ s.asked = [1] ∧ s.getListening = true ∧ s.Idempotent := by
  have hrun : Run (ServerStartStep (isInLoopThread 0) 0 fun _ => 1) (constructed 1 false)
      (wholeCall 1) _ := Run.of_foldlM rfl
  exact ⟨_, hrun, rfl, rfl, rfl, (idempotent_iff_one_call hrun).1 (by decide)⟩

/-- The second call fails both assertions, makes another loop and listens again. -/
theorem secondCall_not_idempotent : ∃ s,
    Run (ServerStartStep (isInLoopThread 0) 0 fun _ => 1) (constructed 1 false)
        (wholeCall 1 ++ wholeCall 2) s ∧
      s.Finished ∧ s.failed = [2, 2] ∧ s.loops = [(1, 0), (2, 0)] ∧ s.asked = [1, 2] ∧
        ¬ s.Idempotent := by
  have hrun : Run (ServerStartStep (isInLoopThread 0) 0 fun _ => 1) (constructed 1 false)
      (wholeCall 1 ++ wholeCall 2) _ := Run.of_foldlM rfl
  refine ⟨_, hrun, by unfold Finished; decide, rfl, rfl, rfl, fun h => ?_⟩
  exact absurd h.startsPool (by decide)

end StartingServer

end LearnMuduo
