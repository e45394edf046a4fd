/-
The labels over the farm, told by the history of a run: which turns let one
rise, and how many seconds have passed since, by the host's own times. However
the frames divide these seconds, the labels are the same, since a label is
moved and aged by spans that add up, and is gone for good once its life is.

Numbers are exact here; sums of doubles depend on how they are divided.
-/
import FarmClient.Proofs.ExactNumbers
import FarmClient.Proofs.SceneChanges

namespace FarmClient

variable {K : Type} [ExactScalar K]

/-! ## Seconds -/

/-- The host's times in some turns. -/
def stampsOf (turns : List (Turn K)) : List K := turns.filterMap (·.input.stamp?)

/-- The seconds between frames at some times, if the last frame before them
was at `last`. A step back takes no time, nor does the first frame of all. -/
def secondsOver : Option K → List K → K
  | _, [] => 0
  | none, now :: later => secondsOver (some now) later
  | some last, now :: later => max 0 ((now - last) / 1000) + secondsOver (some now) later

theorem secondsOver_nonneg (last : Option K) (stamps : List K) : 0 ≤ secondsOver last stamps := by
  induction stamps generalizing last with
  | nil => cases last <;> exact le_rfl
  | cons now later ih =>
    cases last with
    | none => exact ih _
    | some last => exact add_nonneg (le_max_left _ _) (ih _)

theorem secondsOver_append (last : Option K) (stamps later : List K) :
    secondsOver last (stamps ++ later) = secondsOver last stamps + secondsOver (stamps.getLast?.or last) later := by
  induction stamps generalizing last with
  | nil => cases last <;> simp [secondsOver]
  | cons now stamps ih =>
    have hlast : ((now :: stamps).getLast?.or last) = stamps.getLast?.or (some now) := by
      cases h : stamps.getLast? <;> simp [List.getLast?_cons, h]
    rw [List.cons_append, hlast]
    cases last with
    | none => exact ih _
    | some last => rw [secondsOver, secondsOver, ih, add_assoc]

/-- Without a step back the seconds are those from the first time to the last. -/
theorem secondsOver_of_sorted {last now : K} {stamps : List K} (h : (last :: stamps).Pairwise (· ≤ ·))
    (hl : (last :: stamps).getLast? = some now) : secondsOver (some last) stamps = (now - last) / 1000 := by
  induction stamps generalizing last with
  | nil =>
    obtain rfl : last = now := by simpa using hl
    simp [secondsOver]
  | cons next later ih =>
    obtain ⟨hle, hs⟩ := List.pairwise_cons.mp h
    have hl' : (next :: later).getLast? = some now := by simpa using hl
    have hnext : last ≤ next := hle next List.mem_cons_self
    have hd : 0 ≤ (next - last) / 1000 := by linarith
    rw [secondsOver, ih hs hl', max_eq_right hd, ← add_div, sub_add_sub_cancel']

theorem atLeastZero_eq (x : K) : Scalar.atLeastZero x = max 0 x := by
  unfold Scalar.atLeastZero
  rw [Scalar.literal_zero]
  split
  · next h => exact (max_eq_right h).symm
  · next h => exact (max_eq_left (le_of_not_ge h)).symm

theorem FrameClock.elapsed_eq (c : FrameClock K) (now : K) : c.elapsed now = secondsOver c.last [now] := by
  cases h : c.last with
  | none => simp [FrameClock.elapsed, secondsOver, h]
  | some last => simp [FrameClock.elapsed, secondsOver, h, atLeastZero_eq]

@[simp] theorem stampsOf_nil : stampsOf ([] : List (Turn K)) = [] := rfl

@[simp] theorem stampsOf_append (turns later : List (Turn K)) :
    stampsOf (turns ++ later) = stampsOf turns ++ stampsOf later := List.filterMap_append

theorem stampsOf_cons (t : Turn K) (turns : List (Turn K)) :
    stampsOf (t :: turns) = t.input.stamp?.toList ++ stampsOf turns := by
  cases h : t.input.stamp? with
  | none => exact List.filterMap_cons_none h
  | some now => exact List.filterMap_cons_some h

/-! ## Labels -/

/-- The label of a turn when `e` seconds have passed since. An event of a
session has one for less than a second if it changes a gold that was known, at
a cell that has a place. -/
def Turn.label? (t : Turn K) (e : K) : Option (FloatingText K) :=
  match t.input.message?, t.before.scene.cache.gold?, t.before.scene.field? with
  | some (.event ev), some known, some field =>
    if t.before.controller.isActive ∧ ev.gold ≠ known ∧ 0 ≤ ev.x.toInt ∧ 0 ≤ ev.y.toInt ∧ e < 1 then
      let p := t.before.scene.projector.center ⟨ev.x.toInt.toNat, ev.y.toInt.toNat⟩ field
      some ⟨p.x, p.y - 20 - 40 * e, goldLabel (ev.gold - known).toInt, 1 - e, -40⟩
    else none
  | _, _, _ => none

/-- The change of gold that a turn's event brings, if the gold before was known. -/
def Turn.goldChange? (t : Turn K) : Option Int :=
  match t.input.message?, t.before.scene.cache.gold? with
  | some (.event ev), some known => some (ev.gold.toInt - known.toInt)
  | _, _ => none

/-- The labels that are left of some turns, oldest first, if the last frame
before them was at `last`. -/
def labelsOf (last : Option K) : List (Turn K) → List (FloatingText K)
  | [] => []
  | t :: later =>
    let last := t.input.stamp?.or last
    (t.label? (secondsOver last (stampsOf later))).toList ++ labelsOf last later

theorem Turn.label?_of_no_event {t : Turn K} (h : ∀ e, t.input.message? ≠ some (.event e)) (e : K) :
    t.label? e = none := by
  unfold Turn.label?
  split
  · next ev _ _ he _ _ => exact absurd he (h ev)
  · rfl

theorem Turn.label?_of_idle {t : Turn K} (h : t.before.controller.isActive = false) (e : K) :
    t.label? e = none := by
  unfold Turn.label?
  split
  · simp [h]
  · rfl

theorem Input.Idles.label? {a : App K} {i : Input K} (h : i.Idles a) (e : K) : (⟨a, i⟩ : Turn K).label? e = none := by
  cases ha : a.controller.isActive with
  | false => exact Turn.label?_of_idle ha e
  | true => exact Turn.label?_of_no_event (fun ev he => by simp [h.event ev he] at ha) e

/-- A label tells the change of gold, if that is within the bounds of 64 bits. -/
theorem Turn.text_of_label? {t : Turn K} {e : K} {label : FloatingText K} (h : t.label? e = some label) {change : Int}
    (hc : t.goldChange? = some change) (hmin : Int64.minValue.toInt ≤ change) (hmax : change ≤ Int64.maxValue.toInt) :
    label.text = goldLabel change := by
  unfold Turn.label? at h
  unfold Turn.goldChange? at hc
  split at h
  · next ev known field hev hknown _ =>
    rw [hev, hknown] at hc
    cases hc
    have hlow : Int64.minValue.toInt = -9223372036854775808 := by decide
    have hhigh : Int64.maxValue.toInt = 9223372036854775807 := by decide
    have hd : (ev.gold - known).toInt = ev.gold.toInt - known.toInt := by
      rw [Int64.toInt_sub]
      exact Int.bmod_eq_of_le (by norm_num; omega) (by norm_num; omega)
    split at h
    · cases h
      rw [hd]
    · cases h
  · cases h

/-- The label that an event lets rise is its turn's at once. -/
theorem Turn.label?_zero {a : App K} {i : Input K} {ev : ExecEvent} (hi : i.message? = some (.event ev))
    (ha : a.controller.isActive = true) :
    (⟨a, i⟩ : Turn K).label? 0 = a.scene.newLabel? ev.x.toInt ev.y.toInt ev.gold := by
  unfold Turn.label? Scene.newLabel?
  simp only [hi, ha]
  cases a.scene.cache.gold? with
  | none => rfl
  | some known =>
    cases a.scene.field? with
    | none => rfl
    | some field =>
      simp [Scene.labelLift, Scene.labelSpeed, Overlay.fullLife, Scalar.min]

theorem Overlay.advance_append (xs ys : List (FloatingText K)) (d : K) :
    ((⟨xs ++ ys⟩ : Overlay K).advance d).labels =
      ((⟨xs⟩ : Overlay K).advance d).labels ++ ((⟨ys⟩ : Overlay K).advance d).labels := by
  simp [Overlay.advance]

theorem Overlay.advance_singleton (t : FloatingText K) {d : K} (hd : 0 ≤ d) :
    ((⟨[t]⟩ : Overlay K).advance d).labels =
      if 0 < t.life - d then [⟨t.x, t.y + t.vy * d, t.text, t.life - d, t.vy⟩] else [] := by
  simp [Overlay.advance, Overlay.age, atLeastZero_eq, max_eq_right hd, List.filter_cons]

/-- **Seconds add up** for one label, and one that is gone stays away. -/
theorem Turn.label?_add (t : Turn K) (e : K) {d : K} (hd : 0 ≤ d) :
    (t.label? (e + d)).toList = ((⟨(t.label? e).toList⟩ : Overlay K).advance d).labels := by
  unfold Turn.label?
  split
  · next ev known field _ _ _ =>
    by_cases hc : t.before.controller.isActive ∧ ev.gold ≠ known ∧ 0 ≤ ev.x.toInt ∧ 0 ≤ ev.y.toInt
    · obtain ⟨ha, hg, hx, hy⟩ := hc
      by_cases he : e + d < 1
      · have he' : e < 1 := by linarith
        have hlife : 0 < 1 - e - d := by linarith
        rw [if_pos ⟨ha, hg, hx, hy, he⟩, if_pos ⟨ha, hg, hx, hy, he'⟩]
        rw [Option.toList_some, Option.toList_some, Overlay.advance_singleton _ hd, if_pos hlife, sub_add_eq_sub_sub]
        have hy : ∀ y : K, y - 20 - 40 * (e + d) = y - 20 - 40 * e + -40 * d := fun y => by linarith
        rw [hy]
      · have hlife : ¬ 0 < 1 - e - d := by linarith
        rw [if_neg fun h => he h.2.2.2.2]
        split
        · rw [Option.toList_some, Overlay.advance_singleton _ hd, if_neg hlife]
          rfl
        · rfl
    · rw [if_neg fun h => hc ⟨h.1, h.2.1, h.2.2.1, h.2.2.2.1⟩, if_neg fun h => hc ⟨h.1, h.2.1, h.2.2.1, h.2.2.2.1⟩]
      rfl
  · rfl

/-- **Seconds add up** for all labels: what is left after more turns are the
labels left so far, after the seconds of these turns, and those that the turns
let rise. -/
theorem labelsOf_append (last : Option K) (turns later : List (Turn K)) :
    labelsOf last (turns ++ later) =
      ((⟨labelsOf last turns⟩ : Overlay K).advance
          (secondsOver ((stampsOf turns).getLast?.or last) (stampsOf later))).labels ++
        labelsOf ((stampsOf turns).getLast?.or last) later := by
  induction turns generalizing last with
  | nil => simp [labelsOf, Overlay.advance]
  | cons t turns ih =>
    have hlast : (stampsOf (t :: turns)).getLast?.or last = (stampsOf turns).getLast?.or (t.input.stamp?.or last) := by
      cases ht : t.input.stamp? <;> simp [stampsOf_cons, ht, List.getLast?_cons]
    rw [hlast, List.cons_append, labelsOf, labelsOf, stampsOf_append, secondsOver_append,
      Turn.label?_add _ _ (secondsOver_nonneg _ _), ih, Overlay.advance_append, List.append_assoc]

/-- No label rises in some turns. -/
def Unlabelled (turns : List (Turn K)) : Prop := ∀ t ∈ turns, t.label? 0 = none

theorem Unlabelled.labelsOf_eq {turns : List (Turn K)} (h : Unlabelled turns) (last : Option K) :
    labelsOf last turns = [] := by
  induction turns generalizing last with
  | nil => rfl
  | cons t turns ih =>
    obtain ⟨ht, hs⟩ := List.forall_mem_cons.mp h
    have hd := Turn.label?_add t 0 (secondsOver_nonneg (t.input.stamp?.or last) (stampsOf turns))
    rw [zero_add, ht] at hd
    rw [labelsOf, hd, ih hs]
    rfl

/-! ## Runs -/

/-- Labels and clock of a client are told by its turns. -/
structure Floats (turns : List (Turn K)) (a : App K) : Prop where
  labels : a.scene.overlay.labels = labelsOf none turns
  clock : a.clock.last = (stampsOf turns).getLast?

/-- What one more turn leaves of the labels. -/
theorem Floats.labelsOf_snoc {turns : List (Turn K)} {a : App K} (h : Floats turns a) (i : Input K) :
    labelsOf none (turns ++ [⟨a, i⟩]) =
      (a.scene.overlay.advance (secondsOver a.clock.last i.stamp?.toList)).labels ++
        ((⟨a, i⟩ : Turn K).label? 0).toList := by
  have hs : stampsOf [(⟨a, i⟩ : Turn K)] = i.stamp?.toList := by simp [stampsOf_cons]
  rw [labelsOf_append, hs, Option.or_none, ← h.clock, ← h.labels]
  simp [labelsOf, secondsOver]

/-- Without a frame the labels stay. -/
theorem Floats.advance_zero {turns : List (Turn K)} {a : App K} (h : Floats turns a) :
    (a.scene.overlay.advance 0).labels = a.scene.overlay.labels := by
  have hn := labelsOf_append none turns []
  rw [List.append_nil, ← h.labels] at hn
  simpa [labelsOf, secondsOver] using hn.symm

/-- **One change of the scene** leaves the labels that its turn says. -/
theorem Floats.change {turns : List (Turn K)} {a : App K} {i : Input K} {s : Scene K} (h : Floats turns a)
    (hc : Change a i s) (hi : ∀ scene, i ≠ .scene scene) :
    s.overlay.labels = labelsOf none (turns ++ [⟨a, i⟩]) := by
  have hstay (hs : i.stamp? = none) : labelsOf none (turns ++ [⟨a, i⟩]) =
      a.scene.overlay.labels ++ ((⟨a, i⟩ : Turn K).label? 0).toList := by
    rw [h.labelsOf_snoc, hs]
    simp [secondsOver, h.advance_zero]
  have hquiet (hs : i.stamp? = none) (hl : (⟨a, i⟩ : Turn K).label? 0 = none) :
      a.scene.overlay.labels = labelsOf none (turns ++ [⟨a, i⟩]) := by
    rw [hstay hs, hl]
    exact (List.append_nil _).symm
  cases hc with
  | event e he ha =>
    rw [hstay (Input.stamp?_of_message he), Turn.label?_zero he ha]
    rfl
  | snapshot farm hf =>
    exact hquiet (Input.stamp?_of_snapshot hf) (Turn.label?_of_no_event (Input.message?_of_snapshot hf) 0)
  | frame now viewport image =>
    rw [h.labelsOf_snoc, Turn.label?_of_no_event (by simp [Input.message?]), Option.toList_none, List.append_nil,
      FrameClock.elapsed_eq]
    rfl
  | pointerMoved | pointerLeft => exact hquiet rfl (Turn.label?_of_no_event (by simp [Input.message?]) 0)
  | replace => exact absurd rfl (hi _)
  | rest hidle => exact hquiet hidle.stamp (hidle.label? 0)

theorem Floats.answer {turns : List (Turn K)} {a : App K} {i : Input K} (h : Floats turns a)
    (hi : KeepsScene turns a i) : Floats (turns ++ [⟨a, i⟩]) (a.answer i).1 := by
  refine ⟨h.change (a.answer_change i) hi, ?_⟩
  rw [a.answer_clock i, stampsOf_append]
  cases hs : i.stamp? with
  | none => simpa [stampsOf_cons, hs] using h.clock
  | some now => simp [stampsOf_cons, hs]

theorem Floats.leads {turns post : List (Turn K)} {b c : App K} (h : Floats turns b)
    (hp : Leads KeepsScene turns b post c) : Floats (turns ++ post) c :=
  hp.invariant (I := Floats) h fun hf hi => hf.answer hi

theorem Floats.ofSettings (s : Settings K) : Floats [] (.ofSettings s) := ⟨rfl, rfl⟩

/-- Turns in which no label rises age those there are. -/
theorem Floats.unlabelled {turns post : List (Turn K)} {b c : App K} (h : Floats turns b)
    (hp : Leads KeepsScene turns b post c) (hu : Unlabelled post) :
    c.scene.overlay = b.scene.overlay.advance (secondsOver b.clock.last (stampsOf post)) := by
  have hl := (h.leads hp).labels
  rw [labelsOf_append, hu.labelsOf_eq, List.append_nil, Option.or_none, ← h.clock, ← h.labels] at hl
  exact congrArg Overlay.mk hl

/-- **The labels of a run** are those that its turns let rise and that are
still alive, oldest first, each where its seconds have taken it. From then on,
as long as no label rises, turns of as many seconds leave the same labels; and
if the host's time does not step back, they leave those of one single frame. A label tells the change of gold if that
is within the bounds of 64 bits; beyond them it is the change as such a number
has it. -/
theorem overlay_of_turns {s : Settings K} {turns : List (Turn K)} {b : App K}
    (h : Leads KeepsScene [] (.ofSettings s) turns b) :
    b.scene.overlay.labels = labelsOf none turns ∧
      (∀ (t : Turn K) (e : K) (label : FloatingText K) (change : Int), t.label? e = some label →
        t.goldChange? = some change → Int64.minValue.toInt ≤ change → change ≤ Int64.maxValue.toInt →
        label.text = goldLabel change) ∧
      b.clock.last = (stampsOf turns).getLast? ∧
      (∀ post post' c c', Leads KeepsScene turns b post c → Leads KeepsScene turns b post' c' →
        Unlabelled post → Unlabelled post' →
        secondsOver b.clock.last (stampsOf post) = secondsOver b.clock.last (stampsOf post') →
        c.scene.overlay = c'.scene.overlay) ∧
      ∀ post c last now viewport image, Leads KeepsScene turns b post c → Unlabelled post →
        b.clock.last = some last → (last :: stampsOf post).Pairwise (· ≤ ·) →
        (last :: stampsOf post).getLast? = some now →
        c.scene.overlay = (b.frame now viewport image).scene.overlay := by
  have hf : Floats turns b := by simpa using (Floats.ofSettings s).leads h
  refine ⟨hf.labels, fun t e label change hl hc => Turn.text_of_label? hl hc, hf.clock,
    fun post post' c c' hp hp' hu hu' he => ?_, ?_⟩
  · rw [hf.unlabelled hp hu, hf.unlabelled hp' hu', he]
  · intro post c last now viewport image hp hu hl hs hn
    have hd := secondsOver_nonneg (some last) (stampsOf post)
    rw [secondsOver_of_sorted hs hn] at hd
    have he : b.clock.elapsed now = (now - last) / 1000 := by
      simp [FrameClock.elapsed_eq, hl, secondsOver, hd]
    rw [hf.unlabelled hp hu, hl, secondsOver_of_sorted hs hn, ← he]
    rfl

/-- Two events of a session, with frames between them and a step back. After
that, two more frames do what one would. -/
theorem overlay_of_turns_step_back :
    let picture : Size Rat := ⟨100, 100⟩
    let b := ExactFarm.client.after [.frame 0 picture (some picture), .resync ⟨some 10, none, []⟩,
      .toggleRun "till()", .message (.event ⟨1, 0, 0, 25⟩), .frame 400 picture (some picture),
      .frame 100 picture (some picture), .message (.event ⟨2, 1, 0, 20⟩), .frame 300 picture (some picture)]
    b.scene.overlay.labels.map (fun t => (t.text, t.x, t.y, t.life)) =
        [("+15 💰", 35, -24, 2 / 5), ("-5 💰", 135, -8, 4 / 5)] ∧
      (b.after [.frame 500 picture none, .frame 650 picture none]).scene.overlay =
        (b.frame 650 picture none).scene.overlay := by
  intro picture b
  have hk : Allowed KeepsScene [] ExactFarm.client [.frame 0 picture (some picture), .resync ⟨some 10, none, []⟩,
      .toggleRun "till()", .message (.event ⟨1, 0, 0, 25⟩), .frame 400 picture (some picture),
      .frame 100 picture (some picture), .message (.event ⟨2, 1, 0, 20⟩), .frame 300 picture (some picture)] := by
    simp [Allowed, KeepsScene]
  obtain ⟨hl, -, -, -, hone⟩ := overlay_of_turns hk.leads
  have hf (past : List (Turn Rat)) : Allowed KeepsScene past b [.frame 500 picture none, .frame 650 picture none] := by
    simp [Allowed, KeepsScene]
  refine ⟨?_, hone _ _ 300 650 picture none (hf _).leads ?_ rfl ?_ rfl⟩
  · rw [hl]
    decide +kernel
  · simp [App.turns, Unlabelled, Turn.label?, Input.message?]
  · have hs : ([300, 500, 650] : List Rat).Pairwise (· ≤ ·) := by decide +kernel
    exact hs

end FarmClient
