/-
Messages of a session that the client has given up. An abort does not wait
for the server, and what the server sends names no session: an event or the
end of a script may come when another session runs.

The link below is a client, a server that executes one script at a time, and
a queue in each direction. The sessions it is annotated with are the
observer's; neither side sees them. What comes late is ignored as long as no
session runs, and only then: to a session that runs it is its own.
-/
import FarmClient.Proofs.ClientRuns
import FarmClient.Proofs.ExactFarm
import Mathlib.Logic.Relation

namespace FarmClient

variable {K : Type} [Scalar K]

/-- The messages that the server produces for the script it executes. -/
inductive ServerMessage.OfScript : ServerMessage → Prop
  | event (e : ExecEvent) : OfScript (.event e)
  | done (r : Option ScriptResult) : OfScript (.done r)

/-! ## Links -/

/-- A client and its server, with what is on the way between them. -/
structure Link (K : Type) [Scalar K] where
  app : App K
  /-- To the server, oldest first, each with the session it was sent in. -/
  up : List (Nat × ClientMessage)
  /-- The session whose script the server executes. -/
  executing : Option Nat
  /-- To the client, oldest first, each with the session executed then. -/
  down : List (Option Nat × ServerMessage)

namespace Link

/-- A new connection. -/
def ofApp (a : App K) : Link K := ⟨a, [], none, []⟩

def session (l : Link K) : Nat := l.app.controller.session

/-- The client is given an input. What it sends is of the session that it is
in then: a start is the first message of its own session. -/
def give (l : Link K) (i : Input K) : Link K :=
  let (app, actions) := l.app.answer i
  { l with app, up := l.up ++ (messagesOf actions).map fun m => (app.controller.session, m) }

/-- What the server executes once it has a message. -/
def serve (executing : Option Nat) : Nat × ClientMessage → Option Nat
  | (k, .start ..) => some k
  | (_, .abort) => none
  | _ => executing

/-- One step of a link; `host` says which inputs the client's host may give.
The server may say anything at any time, but events and the end of a script
only of the script that it executes. -/
inductive Step (host : Link K → Input K → Prop) : Link K → Link K → Prop
  | input {l} (i : Input K) : i.message? = none → i ≠ .connectionLost → host l i → Step host l (l.give i)
  | take {l u up} : l.up = u :: up → Step host l { l with up, executing := serve l.executing u }
  | event {l} (e : ExecEvent) (k : Nat) : l.executing = some k →
      Step host l { l with down := l.down ++ [(some k, .event e)] }
  | done {l} (r : Option ScriptResult) (k : Nat) : l.executing = some k →
      Step host l { l with down := l.down ++ [(some k, .done r)], executing := none }
  | notice {l} (m : ServerMessage) : ¬ m.OfScript →
      Step host l { l with down := l.down ++ [(l.executing, m)] }
  | deliver {l d down} (i : Input K) : l.down = d :: down → i.message? = some d.2 →
      Step host l ({ l with down }.give i)
  | lose {l} : Step host l (.ofApp (l.app.answer .connectionLost).1)

/-- The links that come of a client's first connection. -/
abbrev Reaches (host : Link K → Input K → Prop) (a : App K) : Link K → Prop :=
  Relation.ReflTransGen (Step host) (.ofApp a)

/-- Nothing of any session is on its way or to come. -/
structure Settled (l : Link K) : Prop where
  up : l.up = []
  executing : l.executing = none
  down : ∀ d ∈ l.down, ¬ d.2.OfScript

/-- The host starts a session only when all earlier ones have been settled. -/
def Patient (host : Link K → Input K → Prop) : Prop :=
  ∀ l i, host l i → (l.give i).session ≠ l.session → l.Settled

/-! ## Whose messages are on the way -/

/-- Whatever is on its way is of a session for which `p` holds. -/
structure Tagged (p : Nat → Prop) (l : Link K) : Prop where
  up : ∀ u ∈ l.up, p u.1
  executing : ∀ k, l.executing = some k → p k
  down : ∀ d ∈ l.down, d.2.OfScript → ∀ k, d.1 = some k → p k

namespace Tagged

variable {p q : Nat → Prop} {l : Link K}

theorem ofApp (a : App K) : (Link.ofApp a).Tagged p :=
  ⟨by simp [Link.ofApp], by simp [Link.ofApp], by simp [Link.ofApp]⟩

theorem mono (h : l.Tagged p) (hq : ∀ k, p k → q k) : l.Tagged q :=
  ⟨fun u hu => hq _ (h.up u hu), fun k hk => hq _ (h.executing k hk),
    fun d hd hm k hk => hq _ (h.down d hd hm k hk)⟩

theorem of_settled (h : l.Settled) : l.Tagged p :=
  ⟨by simp [h.up], by simp [h.executing], fun d hd hm => absurd hm (h.down d hd)⟩

theorem give (h : l.Tagged p) (i : Input K) (hp : p (l.give i).session) : (l.give i).Tagged p := by
  refine ⟨fun u hu => ?_, h.executing, h.down⟩
  simp only [Link.give, List.mem_append, List.mem_map] at hu
  rcases hu with hu | ⟨m, -, rfl⟩
  · exact h.up u hu
  · exact hp

theorem take (h : l.Tagged p) {u up} (hu : l.up = u :: up) :
    { l with up, executing := serve l.executing u }.Tagged p := by
  refine ⟨fun v hv => h.up v (by simp [hu, hv]), fun k hk => ?_, h.down⟩
  obtain ⟨j, m⟩ := u
  cases m with
  | start mode code =>
    obtain rfl : j = k := by simpa [serve] using hk
    exact h.up (j, .start mode code) (by simp [hu])
  | abort => simp [serve] at hk
  | step | ack => exact h.executing k hk

theorem say (h : l.Tagged p) {m : ServerMessage} {k : Option Nat} (hk : m.OfScript → k = l.executing) :
    { l with down := l.down ++ [(k, m)] }.Tagged p := by
  refine ⟨h.up, h.executing, fun d hd hm j hj => ?_⟩
  rw [List.mem_append, List.mem_singleton] at hd
  rcases hd with hd | rfl
  · exact h.down d hd hm j hj
  · exact h.executing j ((hk hm).symm.trans hj)

theorem stop (h : l.Tagged p) : { l with executing := none }.Tagged p := ⟨h.up, by simp, h.down⟩

theorem drop (h : l.Tagged p) {d down} (hd : l.down = d :: down) : { l with down }.Tagged p :=
  ⟨h.up, h.executing, fun e he => h.down e (by simp [hd, he])⟩

end Tagged

end Link

/-! ## What a message does -/

/-- A message of the server changes the controller only by ending a script. -/
theorem App.handle_controller (a : App K) (m : ServerMessage) :
    (a.handle m).1.controller = a.controller ∨
      (a.handle m).1.controller = { a.controller with state := .idle } := by
  cases m with
  | event e =>
    simp only [App.handle]
    split
    · next ha => exact .inl (by simp only [App.control, Controller.event]; split <;> rfl)
    · exact .inl rfl
  | farmState farm => exact .inl (by simp only [App.handle]; split <;> rfl)
  | done r =>
    simp only [App.handle, App.control, Controller.done]
    split
    · exact .inr rfl
    · exact .inl rfl
  | error text line => exact .inl rfl

/-- A message passes a client by: neither the session, nor the gold, nor the
labels change, and nothing is asked for. -/
structure App.Passes (a : App K) (m : ServerMessage) : Prop where
  state : (a.handle m).1.controller.state = a.controller.state
  session : (a.handle m).1.controller.session = a.controller.session
  gold : (a.handle m).1.scene.cache.gold? = a.scene.cache.gold?
  overlay : (a.handle m).1.scene.overlay = a.scene.overlay
  actions : (a.handle m).2 = []

/-- A message is taken for one of the session that is running. -/
def App.Takes (a : App K) (m : ServerMessage) : Prop :=
  (a.handle m).1.controller.session = a.controller.session ∧
    match m with
    | .event e =>
      (a.handle m).1.controller.state = a.controller.state ∧
        (a.handle m).1.scene.cache.gold? = some e.gold ∧ .highlightLine e.line ∈ (a.handle m).2 ∧
        (a.controller.state = .runningAuto →
          .scheduleAck ⟨a.controller.session⟩ a.controller.interval ∈ (a.handle m).2)
    | .done _ => (a.handle m).1.controller.state = .idle
    | _ => True

theorem Scene.recordGold_gold (s : Scene K) (x y : Int) (gold : Int64) :
    (s.recordGold x y gold).1.cache.gold? = some gold := by
  simp only [Scene.recordGold]
  split
  · rfl
  · split
    · split <;> rfl
    · rfl

/-- Messages of a script pass an idle client by. -/
theorem App.passes_of_idle {a : App K} {m : ServerMessage} (hm : m.OfScript)
    (hs : a.controller.state = .idle) : a.Passes m := by
  have ha := Controller.isActive_eq_false.mpr hs
  have he : a.handle m = (a, []) := by
    cases hm with
    | event e => simp [App.handle, ha]
    | done r => simp [App.handle, App.control, Controller.done, ha]
  constructor <;> rw [he]

/-- And any other client takes them. -/
theorem App.takes_of_active {a : App K} {m : ServerMessage} (hm : m.OfScript)
    (ha : a.controller.isActive = true) : a.Takes m := by
  cases hm with
  | event e =>
    have hc : a.controller.event e.line = (a.controller, .highlightLine e.line ::
        if a.controller.state = .runningAuto then [.scheduleAck ⟨a.controller.session⟩ a.controller.interval]
        else []) := by simp [Controller.event, ha]
    simp only [App.Takes, App.handle, App.control, ha, if_true, hc]
    exact ⟨trivial, trivial, Scene.recordGold_gold .., by simp, fun hs => by simp [hs]⟩
  | done r => simp [App.Takes, App.handle, App.control, Controller.done, ha]

theorem App.not_passes_of_takes {a : App K} {m : ServerMessage} (hm : m.OfScript)
    (ha : a.controller.isActive = true) (ht : a.Takes m) : ¬ a.Passes m := by
  intro hp
  cases hm with
  | event e =>
    have hl := ht.2.2.2.1
    rw [hp.actions] at hl
    cases hl
  | done r => exact Controller.isActive_eq_true.mp ha (hp.state.symm.trans ht.2)

/-- A session that is running after an input was running before it, or has
been started by it. -/
theorem Move.isActive {c c' : Controller} {i : Input K} {ms ts} (h : Move c i c' ms ts)
    (hs : c'.session = c.session) (ha : c'.isActive = true) : c.isActive = true := by
  rw [Controller.isActive_eq_true] at *
  cases h with
  | start => simp at hs
  | pause _ hc | resume _ hc => simp [hc]
  | ask | permit | event => exact ha
  | cancel | finish | lose => simp at ha
  | rest hc => rwa [← hc]

namespace Link

/-! ## What a step keeps -/

/-- Whatever is on its way is of a session that has been started, and, to a
patient host, of the running one if one is running. -/
structure Dated (patient : Prop) (l : Link K) : Prop where
  started : l.Tagged (· ≤ l.session)
  running : patient → l.app.controller.isActive = true → l.Tagged (· = l.session)

theorem Dated.ofApp {patient : Prop} (a : App K) : (Link.ofApp a).Dated patient :=
  ⟨.ofApp a, fun _ _ => .ofApp a⟩

/-- A step in which the client has no part. -/
theorem Dated.of_tagged {patient : Prop} {l l' : Link K} (h : l.Dated patient) (ha : l'.app = l.app)
    (ht : ∀ p, l.Tagged p → l'.Tagged p) : l'.Dated patient := by
  refine ⟨?_, fun hp hr => ?_⟩ <;> simp only [session, ha] at *
  · exact ht _ h.started
  · exact ht _ (h.running hp hr)

theorem Dated.give {patient : Prop} {l : Link K} (h : l.Dated patient) (i : Input K)
    (hs : patient → (l.give i).session ≠ l.session → l.Settled) : (l.give i).Dated patient := by
  have hm := l.app.answer_move i
  refine ⟨(h.started.mono fun k hk => Nat.le_trans hk hm.session_le).give i (Nat.le_refl _), fun hp ha => ?_⟩
  by_cases he : (l.give i).session = l.session
  · exact ((h.running hp (hm.isActive he ha)).mono fun k hk => hk.trans he.symm).give i rfl
  · exact (Tagged.of_settled (hs hp he)).give i rfl

theorem Dated.step {host : Link K → Input K → Prop} {l l' : Link K} (h : l.Dated (Patient host))
    (hs : Step host l l') : l'.Dated (Patient host) := by
  cases hs with
  | input i _ _ ha => exact h.give i fun hp he => hp l i ha he
  | take hu => exact h.of_tagged rfl fun p ht => ht.take hu
  | event e k hk => exact h.of_tagged rfl fun p ht => ht.say fun _ => hk.symm
  | done r k hk => exact h.of_tagged rfl fun p ht => (ht.say fun _ => hk.symm).stop
  | notice m hm => exact h.of_tagged rfl fun p ht => ht.say fun _ => rfl
  | @deliver d down i hd hi =>
    have hl : Dated (Patient host) { l with down } := h.of_tagged rfl fun p ht => ht.drop hd
    refine hl.give i fun _ he => absurd ?_ he
    -- a message of the server starts no session
    simp only [session, Link.give, App.answer_of_message _ hi]
    rcases l.app.handle_controller d.2 with hc | hc <;> rw [hc]
  | lose => exact .ofApp _

theorem Reaches.dated {host : Link K → Input K → Prop} {a : App K} {l : Link K} (h : Reaches host a l) :
    l.Dated (Patient host) := by
  induction h with
  | refl => exact .ofApp a
  | tail _ hs ih => exact ih.step hs

end Link

/-- **Messages of another session.** Whatever the host, the user and the
server do, and in any order: a message that was produced for a session other
than the running one is of an earlier session. It passes the client by if no
session is running, and only then; one that is running takes it for its own.
To a host that starts a session only when the earlier ones have been settled
that never happens. -/
theorem stale_passes_iff {host : Link K → Input K → Prop} {k : Nat} {a : App K} {l : Link K}
    {m : ServerMessage} {down : List (Option Nat × ServerMessage)} (h : Link.Reaches host a l)
    (hd : l.down = (some k, m) :: down) (hm : m.OfScript)
    (hk : l.app.controller.isActive = true → k ≠ l.session) :
    k ≤ l.session ∧ (l.app.Passes m ↔ l.app.controller.state = .idle) ∧
      (l.app.controller.isActive = true → k < l.session ∧ l.app.Takes m) ∧
      (Link.Patient host → l.app.Passes m) := by
  have hl := h.dated
  have hmem : (some k, m) ∈ l.down := by simp [hd]
  have hle : k ≤ l.session := hl.started.down _ hmem hm k rfl
  refine ⟨hle, ⟨fun hp => ?_, App.passes_of_idle hm⟩, fun ha => ?_, fun hp => ?_⟩
  · cases ha : l.app.controller.isActive with
    | false => exact Controller.isActive_eq_false.mp ha
    | true => exact absurd hp (App.not_passes_of_takes hm ha (App.takes_of_active hm ha))
  · have := hk ha
    exact ⟨by omega, App.takes_of_active hm ha⟩
  · refine App.passes_of_idle hm (Controller.isActive_eq_false.mp ?_)
    cases ha : l.app.controller.isActive with
    | false => rfl
    | true => exact absurd ((hl.running hp ha).down _ hmem hm k rfl) (hk ha)

/-! ## A restart over an abort -/

/-- A session is aborted and the next one started before the first event of
the aborted one comes. -/
def Link.restarted : Link Rat :=
  let l := (Link.ofApp ExactFarm.client).give (.toggleRun "till()")
  let l := { l with up := [], executing := some 1, down := [(some 1, .event ⟨7, 0, 0, 25⟩)] }
  (l.give .abort).give (.toggleRun "plant()")

theorem Link.restarted_reaches {host : Link Rat → Input Rat → Prop} (h : ∀ l i, host l i) :
    Link.Reaches host ExactFarm.client Link.restarted := by
  have h₁ := Relation.ReflTransGen.single (Step.input (.toggleRun "till()") rfl (by simp)
    (h (.ofApp ExactFarm.client) _))
  have h₂ := h₁.tail (.take rfl)
  have h₃ := h₂.tail (.event ⟨7, 0, 0, 25⟩ 1 rfl)
  have h₄ := h₃.tail (.input .abort rfl (by simp) (h _ _))
  exact h₄.tail (.input (.toggleRun "plant()") rfl (by simp) (h _ _))

/-- The event is highlighted, and its wait runs under the ticket of the new
session. -/
theorem stale_passes_iff_restarted :
    1 < Link.restarted.session ∧ Link.restarted.app.Takes (.event ⟨7, 0, 0, 25⟩) ∧
      ¬ Link.restarted.app.Passes (.event ⟨7, 0, 0, 25⟩) := by
  have hr : Link.Reaches (fun _ _ => True) ExactFarm.client Link.restarted :=
    Link.restarted_reaches fun _ _ => trivial
  obtain ⟨-, hp, ht, -⟩ := stale_passes_iff hr rfl (.event _) (by decide +kernel)
  have ha : Link.restarted.app.controller.isActive = true := by decide +kernel
  exact ⟨(ht ha).1, (ht ha).2, fun h => Controller.isActive_eq_true.mp ha (hp.mp h)⟩

/-- Messages of another session do not pass every client by. -/
theorem not_forall_stale_passes :
    ¬ ∀ (l : Link Rat) (k : Nat) (m : ServerMessage) (down : List (Option Nat × ServerMessage)),
      Link.Reaches (fun _ _ => True) ExactFarm.client l → l.down = (some k, m) :: down → m.OfScript →
        (l.app.controller.isActive = true → k ≠ l.session) → l.app.Passes m := by
  intro h
  have hp := h Link.restarted 1 (.event ⟨7, 0, 0, 25⟩) [] (Link.restarted_reaches fun _ _ => trivial) rfl
    (.event _) (by decide +kernel)
  have ha : Link.restarted.app.controller.isActive = true := by decide +kernel
  exact App.not_passes_of_takes (.event _) ha (App.takes_of_active (.event _) ha) hp

end FarmClient
