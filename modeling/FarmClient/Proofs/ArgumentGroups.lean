/-
The arguments of `run`. An argument list is a sequence of groups, each of which
spells one part of the command (`Spells`); what stands after an option is its
value, whatever it looks like. The groups of a list are read off from left to
right up to its end, or up to arguments at which no group begins (`Offends`):
there is nothing else (`splits_or_offendsFirst`), and what is read in either case
is told by the parts that were spelt (`read_splits`, `read_offends`).
-/
import FarmClient.Terminal.Args
import FarmClient.Proofs.JsonWriting

namespace FarmClient.Terminal

/-! ## Groups of arguments -/

/-- What one group of arguments says. -/
inductive Part where
  | manual
  | server (url : String)
  | interval (ms : Nat)
  | script (path : String)

/-- The text of a number of 64 bits: digits, with a plus sign before them or not. -/
def IntervalText (text : String) (n : Nat) : Prop :=
  n < UInt64.size ∧ ∃ ds, Json.Digits ds ∧ Decimal.ofDigits ds = n ∧ (text.toList = ds ∨ text.toList = '+' :: ds)

/-- An argument with a dash in front. -/
def Dashed (arg : String) : Prop := arg.toList.head? = some '-'

instance : DecidablePred Dashed := fun arg => inferInstanceAs (Decidable (arg.toList.head? = some '-'))

/-- A group of arguments that says a part. -/
inductive Spells : Part → List String → Prop
  | manual {flag} : flag ∈ ["--manual", "-m"] → Spells .manual [flag]
  | server {option url} : option ∈ ["--server", "-s"] → Spells (.server url) [option, url]
  | interval {option text n} : option ∈ ["--interval", "-i"] → IntervalText text n →
      Spells (.interval n) [option, text]
  | script {path} : ¬ Dashed path → Spells (.script path) [path]

/-- A whole argument list, group by group. -/
inductive Splits : List Part → List String → Prop
  | nil : Splits [] []
  | cons {p ps group rest} : Spells p group → Splits ps rest → Splits (p :: ps) (group ++ rest)

/-- Arguments at which no group begins, and what is wrong with them. -/
inductive Offends : List String → ArgsError → Prop
  | noServer {option} : option ∈ ["--server", "-s"] → Offends [option] (.missingValue "--server")
  | noInterval {option} : option ∈ ["--interval", "-i"] → Offends [option] (.missingValue "--interval")
  | badInterval {option text rest} : option ∈ ["--interval", "-i"] → (∀ n, ¬ IntervalText text n) →
      Offends (option :: text :: rest) (.invalidInterval text)
  | unknown {arg rest} : Dashed arg → arg ∉ ["--manual", "-m", "--server", "-s", "--interval", "-i"] →
      Offends (arg :: rest) (.unknownOption arg)

/-- The list offends: after some groups comes something that is none. -/
def OffendsFirst (args : List String) (e : ArgsError) : Prop :=
  ∃ ps before rest, args = before ++ rest ∧ Splits ps before ∧ Offends rest e

namespace Part

def server? : Part → Option String
  | .server url => some url
  | _ => none

def interval? : Part → Option Nat
  | .interval ms => some ms
  | _ => none

def script? : Part → Option String
  | .script path => some path
  | _ => none

end Part

/-- What the parts say together: of each kind the last one counts. -/
structure Say (ps : List Part) (a : RunArgs) : Prop where
  script : (ps.filterMap Part.script?).getLast? = some a.script
  manual : a.manual = true ↔ Part.manual ∈ ps
  server : a.server = (ps.filterMap Part.server?).getLast?
  interval : a.interval = (ps.filterMap Part.interval?).getLast?

/-! ## One group -/

/-- The text of a number without a plus sign in front. -/
def unsigned : List Char → List Char
  | '+' :: ds => ds
  | ds => ds

theorem unsigned_eq_iff {cs ds : List Char} (h : Json.Digits ds) :
    unsigned cs = ds ↔ cs = ds ∨ cs = '+' :: ds := by
  rw [unsigned.eq_def]
  split
  · next cs =>
    constructor
    · intro hd
      exact .inr (hd ▸ rfl)
    · rintro (rfl | hd)
      · have hplus : '+'.isDigit = true := h.2 '+' List.mem_cons_self
        exact absurd hplus (by decide)
      · exact (List.cons.inj hd).2
  · next hplus =>
    constructor
    · exact .inl
    · rintro (hd | hd)
      · exact hd
      · exact absurd hd (hplus ds)

theorem interval?_eq_some_iff {text : String} {n : Nat} : interval? text = some n ↔ IntervalText text n := by
  have hread : interval? text = some n ↔
      n < UInt64.size ∧ Json.Digits (unsigned text.toList) ∧ Decimal.ofDigits (unsigned text.toList) = n := by
    refine Option.ite_none_left_eq_some.trans ?_
    simp only [not_or, Bool.not_eq_true, List.isEmpty_eq_false_iff, Bool.not_eq_false', List.all_eq_true, Nat.not_le,
      Option.some.injEq]
    constructor
    · rintro ⟨⟨hne, hall, hlt⟩, rfl⟩
      exact ⟨hlt, ⟨hne, hall⟩, rfl⟩
    · rintro ⟨hlt, ⟨hne, hall⟩, rfl⟩
      exact ⟨⟨hne, hall, hlt⟩, rfl⟩
  rw [hread]
  constructor
  · rintro ⟨hlt, hd, hn⟩
    exact ⟨hlt, _, hd, hn, (unsigned_eq_iff hd).mp rfl⟩
  · rintro ⟨hlt, ds, hd, hn, ht⟩
    rw [(unsigned_eq_iff hd).mpr ht]
    exact ⟨hlt, hd, hn⟩

theorem interval?_eq_none_iff {text : String} : interval? text = none ↔ ∀ n, ¬ IntervalText text n := by
  simp only [← interval?_eq_some_iff, Option.eq_none_iff_forall_ne_some, ne_eq]

/-- A part on top of what has been read. -/
def PartialArgs.take (p : PartialArgs) : Part → PartialArgs
  | .manual => { p with manual := true }
  | .server url => { p with server := some url }
  | .interval ms => { p with interval := some ms }
  | .script path => { p with script := some path }

/-! ### What an argument is taken for -/

theorem taken_for_server {option : String} (h : option ∈ ["--server", "-s"]) :
    isManualFlag option = false ∧ isServerOption option = true := by
  rcases h with _ | ⟨_, _ | ⟨_, ⟨⟩⟩⟩ <;> decide

theorem taken_for_interval {option : String} (h : option ∈ ["--interval", "-i"]) :
    isManualFlag option = false ∧ isServerOption option = false ∧ isIntervalOption option = true := by
  rcases h with _ | ⟨_, _ | ⟨_, ⟨⟩⟩⟩ <;> decide

theorem taken_for_none {arg : String} (h : arg ∉ ["--manual", "-m", "--server", "-s", "--interval", "-i"]) :
    isManualFlag arg = false ∧ isServerOption arg = false ∧ isIntervalOption arg = false := by
  simp_all [isManualFlag, isServerOption, isIntervalOption]

theorem not_mem_of_not_dashed {arg : String} (h : ¬ Dashed arg) :
    arg ∉ ["--manual", "-m", "--server", "-s", "--interval", "-i"] := by
  have hall : ∀ a ∈ ["--manual", "-m", "--server", "-s", "--interval", "-i"], Dashed a := by decide
  exact mt (hall arg) h

/-! ### Reading a group -/

theorem read_spells {part : Part} {group : List String} (h : Spells part group) (p : PartialArgs)
    (rest : List String) : p.read (group ++ rest) = (p.take part).read rest := by
  cases h with
  | @manual flag hf =>
    have hm : isManualFlag flag = true := by simpa [isManualFlag] using hf
    rw [List.singleton_append, PartialArgs.read.eq_def]
    simp only [hm, if_true, PartialArgs.take]
  | @server option url ho =>
    obtain ⟨hm, hs⟩ := taken_for_server ho
    simp only [List.cons_append, List.nil_append, PartialArgs.read, hm, hs, if_true, if_false, Bool.false_eq_true,
      PartialArgs.take]
  | @interval option text n ho ht =>
    obtain ⟨hm, hs, hi⟩ := taken_for_interval ho
    simp only [List.cons_append, List.nil_append, PartialArgs.read, hm, hs, hi, if_true, if_false,
      Bool.false_eq_true, interval?_eq_some_iff.mpr ht, PartialArgs.take]
  | @script path hp =>
    obtain ⟨hm, hs, hi⟩ := taken_for_none (not_mem_of_not_dashed hp)
    have hd : ¬ path.toList.head? = some '-' := hp
    rw [List.singleton_append, PartialArgs.read.eq_def]
    simp only [hm, hs, hi, hd, if_false, Bool.false_eq_true, PartialArgs.take]

theorem read_offends {args : List String} {e : ArgsError} (h : Offends args e) (p : PartialArgs) :
    p.read args = .error e := by
  cases h with
  | noServer ho =>
    obtain ⟨hm, hs⟩ := taken_for_server ho
    simp only [PartialArgs.read, hm, hs, if_true, if_false, Bool.false_eq_true]
  | noInterval ho =>
    obtain ⟨hm, hs, hi⟩ := taken_for_interval ho
    simp only [PartialArgs.read, hm, hs, hi, if_true, if_false, Bool.false_eq_true]
  | @badInterval option text rest ho ht =>
    obtain ⟨hm, hs, hi⟩ := taken_for_interval ho
    simp only [PartialArgs.read, hm, hs, hi, if_true, if_false, Bool.false_eq_true, interval?_eq_none_iff.mpr ht]
  | @unknown arg rest hd hu =>
    obtain ⟨hm, hs, hi⟩ := taken_for_none hu
    have hd : arg.toList.head? = some '-' := hd
    rw [PartialArgs.read.eq_def]
    simp only [hm, hs, hi, hd, if_true, if_false, Bool.false_eq_true]

/-- A group begins, or none does. -/
theorem exists_spells_or_offends (arg : String) (args : List String) :
    (∃ part group rest, Spells part group ∧ arg :: args = group ++ rest) ∨ ∃ e, Offends (arg :: args) e := by
  by_cases hm : arg ∈ ["--manual", "-m"]
  · exact .inl ⟨_, _, args, .manual hm, rfl⟩
  by_cases hs : arg ∈ ["--server", "-s"]
  · cases args with
    | nil => exact .inr ⟨_, .noServer hs⟩
    | cons url rest => exact .inl ⟨_, _, rest, .server hs, rfl⟩
  by_cases hi : arg ∈ ["--interval", "-i"]
  · cases args with
    | nil => exact .inr ⟨_, .noInterval hi⟩
    | cons text rest =>
      by_cases ht : ∃ n, IntervalText text n
      · obtain ⟨n, ht⟩ := ht
        exact .inl ⟨_, _, rest, .interval hi ht, rfl⟩
      · exact .inr ⟨_, .badInterval hi (not_exists.mp ht)⟩
  by_cases hd : Dashed arg
  · refine .inr ⟨_, .unknown hd ?_⟩
    rw [show ["--manual", "-m", "--server", "-s", "--interval", "-i"] =
      ["--manual", "-m"] ++ (["--server", "-s"] ++ ["--interval", "-i"]) from rfl]
    simp only [List.mem_append, hm, hs, hi, or_self, not_false_eq_true]
  · exact .inl ⟨_, _, args, .script hd, rfl⟩

/-! ## A whole list -/

theorem read_splits {ps : List Part} {before : List String} (h : Splits ps before) (p : PartialArgs)
    (rest : List String) : p.read (before ++ rest) = (ps.foldl PartialArgs.take p).read rest := by
  induction h generalizing p with
  | nil => rfl
  | cons hg _ ih => rw [List.append_assoc, read_spells hg, ih, List.foldl_cons]

theorem Spells.length_pos {part : Part} {group : List String} (h : Spells part group) : 0 < group.length := by
  cases h <;> simp

theorem splits_or_offendsFirst (args : List String) : (∃ ps, Splits ps args) ∨ ∃ e, OffendsFirst args e := by
  induction hn : args.length using Nat.strongRecOn generalizing args with
  | _ n ih =>
    cases args with
    | nil => exact .inl ⟨[], .nil⟩
    | cons arg args =>
      rcases exists_spells_or_offends arg args with ⟨part, group, rest, hg, ha⟩ | ⟨e, he⟩
      · have hlt : rest.length < n := by
          have := hg.length_pos
          rw [ha, List.length_append] at hn
          omega
        rw [ha]
        rcases ih _ hlt rest rfl with ⟨ps, hs⟩ | ⟨e, ps, before, rest, rfl, hs, he⟩
        · exact .inl ⟨part :: ps, .cons hg hs⟩
        · exact .inr ⟨e, part :: ps, group ++ before, rest, (List.append_assoc ..).symm, .cons hg hs, he⟩
      · exact .inr ⟨e, [], [], arg :: args, rfl, .nil, he⟩

/-! ## What was read -/

/-- What a fold sets anew at some of its steps is what the last of these set. -/
theorem foldl_last {σ α β : Type} (f : σ → α → σ) (get : σ → Option β) (pick : α → Option β)
    (h : ∀ s x, get (f s x) = (pick x).or (get s)) (xs : List α) (s : σ) :
    get (xs.foldl f s) = (xs.filterMap pick).getLast?.or (get s) := by
  induction xs generalizing s with
  | nil => rfl
  | cons x xs ih =>
    rw [List.foldl_cons, ih, h]
    cases hx : pick x with
    | none => rw [List.filterMap_cons_none hx, Option.none_or]
    | some b =>
      rw [List.filterMap_cons_some hx, Option.some_or, List.getLast?_cons]
      cases (xs.filterMap pick).getLast? <;> rfl

namespace PartialArgs

theorem foldl_take_script (ps : List Part) :
    (ps.foldl take PartialArgs.none).script = (ps.filterMap Part.script?).getLast? := by
  have htake : ∀ p part, (take p part).script = part.script?.or p.script := by
    rintro p (_ | _ | _ | _) <;> rfl
  rw [foldl_last take script Part.script? htake]
  exact Option.or_none

theorem foldl_take_server (ps : List Part) :
    (ps.foldl take PartialArgs.none).server = (ps.filterMap Part.server?).getLast? := by
  have htake : ∀ p part, (take p part).server = part.server?.or p.server := by
    rintro p (_ | _ | _ | _) <;> rfl
  rw [foldl_last take server Part.server? htake]
  exact Option.or_none

theorem foldl_take_interval (ps : List Part) :
    (ps.foldl take PartialArgs.none).interval = (ps.filterMap Part.interval?).getLast? := by
  have htake : ∀ p part, (take p part).interval = part.interval?.or p.interval := by
    rintro p (_ | _ | _ | _) <;> rfl
  rw [foldl_last take interval Part.interval? htake]
  exact Option.or_none

theorem foldl_take_manual (ps : List Part) (p : PartialArgs) :
    (ps.foldl take p).manual = true ↔ p.manual = true ∨ Part.manual ∈ ps := by
  induction ps generalizing p with
  | nil => simp
  | cons part ps ih =>
    rw [List.foldl_cons, ih]
    cases part <;> simp [take]

end PartialArgs

theorem say_iff {ps : List Part} {a : RunArgs} :
    Say ps a ↔ (ps.foldl PartialArgs.take .none).script = some a.script ∧
      (ps.foldl PartialArgs.take .none).manual = a.manual ∧ (ps.foldl PartialArgs.take .none).server = a.server ∧
      (ps.foldl PartialArgs.take .none).interval = a.interval := by
  rw [PartialArgs.foldl_take_script, PartialArgs.foldl_take_server, PartialArgs.foldl_take_interval, Bool.eq_iff_iff,
    PartialArgs.foldl_take_manual]
  constructor
  · rintro ⟨hs, hm, hv, hi⟩
    exact ⟨hs, by simpa [PartialArgs.none] using hm.symm, hv.symm, hi.symm⟩
  · rintro ⟨hs, hm, hv, hi⟩
    exact ⟨hs, by simpa [PartialArgs.none] using hm.symm, hv.symm, hi.symm⟩

namespace PartialArgs

/-- What has been read, as a command. -/
def complete (p : PartialArgs) : Except ArgsError RunArgs :=
  p.script.elim (.error .missingScript) fun script => .ok ⟨script, p.manual, p.server, p.interval⟩

theorem complete_eq_ok_iff {p : PartialArgs} {a : RunArgs} :
    p.complete = .ok a ↔ p.script = some a.script ∧ p.manual = a.manual ∧ p.server = a.server ∧
      p.interval = a.interval := by
  obtain ⟨script, manual, server, interval⟩ := p
  obtain ⟨script', manual', server', interval'⟩ := a
  cases script <;> simp [complete]

theorem complete_eq_error_iff {p : PartialArgs} {e : ArgsError} :
    p.complete = .error e ↔ e = .missingScript ∧ p.script = .none := by
  obtain ⟨script, manual, server, interval⟩ := p
  cases script <;> simp [complete, eq_comm]

end PartialArgs

theorem RunArgs.parse_of_read {args : List String} {p : PartialArgs} (h : PartialArgs.none.read args = .ok p) :
    RunArgs.parse args = p.complete := by
  obtain ⟨script, manual, server, interval⟩ := p
  rw [RunArgs.parse, h]
  cases script <;> rfl

theorem RunArgs.parse_of_splits {ps : List Part} {args : List String} (h : Splits ps args) :
    (∀ a, RunArgs.parse args = .ok a ↔ Say ps a) ∧
      ∀ e, RunArgs.parse args = .error e ↔ e = .missingScript ∧ ps.filterMap Part.script? = [] := by
  have hread : PartialArgs.none.read args = .ok (ps.foldl PartialArgs.take .none) := by
    rw [← List.append_nil args, read_splits h]
    rfl
  rw [RunArgs.parse_of_read hread]
  refine ⟨fun a => ?_, fun e => ?_⟩
  · rw [say_iff, PartialArgs.complete_eq_ok_iff]
  · rw [PartialArgs.complete_eq_error_iff, PartialArgs.foldl_take_script, List.getLast?_eq_none_iff]

theorem RunArgs.parse_of_offendsFirst {args : List String} {e : ArgsError} (h : OffendsFirst args e) :
    RunArgs.parse args = .error e := by
  obtain ⟨ps, before, rest, rfl, hs, he⟩ := h
  rw [RunArgs.parse, read_splits hs, read_offends he]
  rfl

theorem RunArgs.parse_eq_ok_iff {args : List String} {a : RunArgs} :
    RunArgs.parse args = .ok a ↔ ∃ ps, Splits ps args ∧ Say ps a := by
  constructor
  · intro hparse
    rcases splits_or_offendsFirst args with ⟨ps, hs⟩ | ⟨e, he⟩
    · exact ⟨ps, hs, ((parse_of_splits hs).1 a).mp hparse⟩
    · rw [parse_of_offendsFirst he] at hparse
      cases hparse
  · rintro ⟨ps, hs, ha⟩
    exact ((parse_of_splits hs).1 a).mpr ha

theorem RunArgs.parse_eq_error_iff {args : List String} {e : ArgsError} :
    RunArgs.parse args = .error e ↔
      OffendsFirst args e ∨ e = .missingScript ∧ ∃ ps, Splits ps args ∧ ps.filterMap Part.script? = [] := by
  constructor
  · intro hparse
    rcases splits_or_offendsFirst args with ⟨ps, hs⟩ | ⟨e', he⟩
    · obtain ⟨hm, hnone⟩ := ((parse_of_splits hs).2 e).mp hparse
      exact .inr ⟨hm, ps, hs, hnone⟩
    · rw [parse_of_offendsFirst he] at hparse
      cases hparse
      exact .inl he
  · rintro (he | ⟨hm, ps, hs, hnone⟩)
    · exact parse_of_offendsFirst he
    · exact ((parse_of_splits hs).2 e).mpr ⟨hm, hnone⟩

/-! ## The parts of a command -/

/-- The parts that a command of arguments consists of. -/
def RunArgs.parts (a : RunArgs) : List Part :=
  .script a.script :: ((if a.manual then [.manual] else []) ++ (a.server.map .server).toList ++
    (a.interval.map .interval).toList)

theorem RunArgs.mem_parts {a : RunArgs} {part : Part} :
    part ∈ a.parts ↔ part = .script a.script ∨ a.manual = true ∧ part = .manual ∨
      (∃ url ∈ a.server, part = .server url) ∨ ∃ ms ∈ a.interval, part = .interval ms := by
  obtain ⟨script, manual, server, interval⟩ := a
  cases manual <;> cases server <;> cases interval <;> simp [parts]

theorem getLast?_of_perm_toList {α : Type} {xs : List α} {o : Option α} (h : xs.Perm o.toList) :
    xs.getLast? = o := by
  cases o with
  | none => rw [List.perm_nil.mp h, List.getLast?_nil]
  | some x => rw [List.perm_singleton.mp h, List.getLast?_singleton]

/-- In whatever order the parts are said, they say the command. -/
theorem say_of_perm {ps : List Part} {a : RunArgs} (h : ps.Perm a.parts) : Say ps a := by
  have hs : a.parts.filterMap Part.script? = (some a.script).toList := by
    obtain ⟨script, _ | _, _ | _, _ | _⟩ := a <;> rfl
  have hv : a.parts.filterMap Part.server? = a.server.toList := by
    obtain ⟨script, _ | _, _ | _, _ | _⟩ := a <;> rfl
  have hi : a.parts.filterMap Part.interval? = a.interval.toList := by
    obtain ⟨script, _ | _, _ | _, _ | _⟩ := a <;> rfl
  constructor
  · exact getLast?_of_perm_toList (hs ▸ h.filterMap Part.script?)
  · rw [h.mem_iff, RunArgs.mem_parts]
    simp
  · exact (getLast?_of_perm_toList (hv ▸ h.filterMap Part.server?)).symm
  · exact (getLast?_of_perm_toList (hi ▸ h.filterMap Part.interval?)).symm

theorem intervalText_natText {n : Nat} (h : n < UInt64.size) : IntervalText (Decimal.natText n) n := by
  refine ⟨h, Decimal.digits n, ⟨Json.digits_ne_nil n, Decimal.digits_isDigit n⟩, Decimal.ofDigits_digits n, .inl ?_⟩
  rw [Decimal.natText, String.toList_ofList]

/-- What the parts of a command need to be written as arguments. -/
structure RunArgs.Writable (a : RunArgs) : Prop where
  script : ¬ Dashed a.script
  interval : ∀ n ∈ a.interval, n < UInt64.size

theorem RunArgs.Writable.exists_spells {a : RunArgs} (h : a.Writable) {part : Part} (hp : part ∈ a.parts) :
    ∃ group, Spells part group := by
  rcases RunArgs.mem_parts.mp hp with rfl | ⟨-, rfl⟩ | ⟨url, -, rfl⟩ | ⟨n, hn, rfl⟩
  · exact ⟨_, .script h.script⟩
  · exact ⟨_, .manual (List.mem_cons_self ..)⟩
  · exact ⟨_, .server (List.mem_cons_self ..)⟩
  · exact ⟨_, .interval (List.mem_cons_self ..) (intervalText_natText (h.interval n hn))⟩

theorem exists_splits {ps : List Part} (h : ∀ part ∈ ps, ∃ group, Spells part group) : ∃ args, Splits ps args := by
  induction ps with
  | nil => exact ⟨[], .nil⟩
  | cons part ps ih =>
    obtain ⟨group, hg⟩ := h part List.mem_cons_self
    obtain ⟨args, hs⟩ := ih fun p hp => h p (List.mem_cons_of_mem _ hp)
    exact ⟨group ++ args, .cons hg hs⟩

/-! ## The command -/

theorem Command.parse_run_eq_ok_iff {program : String} {args : List String} {c : Command} :
    Command.parse (program :: "run" :: args) = .ok c ↔ ∃ a, c = .run a ∧ RunArgs.parse args = .ok a := by
  change (RunArgs.parse args).map Command.run = _ ↔ _
  cases RunArgs.parse args <;> simp [Except.map, eq_comm]

theorem Command.parse_run_eq_error_iff {program : String} {args : List String} {e : ArgsError} :
    Command.parse (program :: "run" :: args) = .error e ↔ RunArgs.parse args = .error e := by
  change (RunArgs.parse args).map Command.run = _ ↔ _
  cases RunArgs.parse args <;> simp [Except.map]

/-- The arguments of `run` are read by their groups and in no other way: a list
is accepted if and only if it splits into groups with a script among them, and
then of each kind the last group counts. Else the first group that offends is
what is told, and only where there is none, the script that is missing. The
parts of a command, in any order and spelt in any way, are read back. -/
theorem run_read_by_groups (program : String) (args : List String) :
    (∀ c, Command.parse (program :: "run" :: args) = .ok c ↔ ∃ a ps, c = .run a ∧ Splits ps args ∧ Say ps a) ∧
    (∀ e, Command.parse (program :: "run" :: args) = .error e ↔
      OffendsFirst args e ∨ e = .missingScript ∧ ∃ ps, Splits ps args ∧ ps.filterMap Part.script? = []) ∧
    ∀ a : RunArgs, a.Writable → ∀ ps : List Part, ps.Perm a.parts →
      (∃ written, Splits ps written) ∧
      ∀ written, Splits ps written → Command.parse (program :: "run" :: written) = .ok (.run a) := by
  refine ⟨fun c => ?_, fun e => ?_, fun a ha ps hp => ⟨?_, fun written hs => ?_⟩⟩
  · rw [Command.parse_run_eq_ok_iff]
    simp only [RunArgs.parse_eq_ok_iff, exists_and_left]
  · rw [Command.parse_run_eq_error_iff, RunArgs.parse_eq_error_iff]
  · exact exists_splits fun part hpart => ha.exists_spells (hp.mem_iff.mp hpart)
  · exact Command.parse_run_eq_ok_iff.mpr ⟨a, rfl, RunArgs.parse_eq_ok_iff.mpr ⟨ps, hs, say_of_perm hp⟩⟩

/-- The value of an option may look like an option, and an option may stand before the script. -/
theorem run_read_by_groups_swallowed_flag :
    RunArgs.Writable ⟨"harvest.js", false, some "--manual", none⟩ ∧
      Command.parse ["cyberfarm", "run", "-s", "--manual", "harvest.js"] =
        .ok (.run ⟨"harvest.js", false, some "--manual", none⟩) := by
  have hw : RunArgs.Writable ⟨"harvest.js", false, some "--manual", none⟩ := ⟨by decide, nofun⟩
  refine ⟨hw, ((run_read_by_groups "cyberfarm" []).2.2 _ hw [.server "--manual", .script "harvest.js"]
    (.swap ..)).2 _ ?_⟩
  exact .cons (.server (by decide)) (.cons (.script (by decide)) .nil)

end FarmClient.Terminal
