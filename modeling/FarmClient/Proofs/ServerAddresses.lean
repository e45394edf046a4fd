/-
The addresses that are made of a server's address. Both have its credentials,
its host and its port, and nothing of what else the address said: the path, a
query or a fragment. The channel has a scheme of its own, and changing the
scheme drops a port that is the new one's default. That does no harm, since
the schemes of a channel have the ports of the web schemes they stand for.

So there are endpoints exactly for web addresses. An address that is read has
a host if its scheme is of the web, and reading it never fails for a reason
that comes later (`parseWith_yields`); what then remains is to refuse the
other schemes.
-/
import Mathlib.Data.List.TakeWhile
import FarmClient.Terminal.Options

namespace FarmClient.Terminal

/-! ## Parts of an address -/

namespace Url

/-- The port that is asked: the one that is given, or else the scheme's own. -/
def effectivePort (u : Url) : Option Nat := (u.authority.bind Authority.port).or (defaultPort u.scheme)

def path (u : Url) : String := String.ofList (u.tail.toList.takeWhile fun c => c ≠ '?' ∧ c ≠ '#')

def query? (u : Url) : Option String :=
  match (u.tail.toList.takeWhile (· ≠ '#')).dropWhile (· ≠ '?') with
  | [] => none
  | _ :: cs => some (String.ofList cs)

def fragment? (u : Url) : Option String :=
  match u.tail.toList.dropWhile (· ≠ '#') with
  | [] => none
  | _ :: cs => some (String.ofList cs)

/-- **An address points to a path at a server**, and to nothing more. -/
structure PointsTo (u : Url) (scheme : String) (server : Authority) (path : String) : Prop where
  scheme_eq : u.scheme = scheme
  authority_eq : u.authority = some server
  path_eq : u.path = path
  query_eq : u.query? = none
  fragment_eq : u.fragment? = none
  text_eq : u.text = scheme ++ "://" ++ server.text ++ path

/-- A path that does not ask and does not point within. -/
theorem pointsTo_of_plain {scheme path : String} {server : Authority}
    (h : ∀ c ∈ path.toList, c ≠ '?' ∧ c ≠ '#') : PointsTo ⟨scheme, some server, path⟩ scheme server path := by
  have hmark : path.toList.takeWhile (· ≠ '#') = path.toList :=
    List.takeWhile_eq_self_iff.mpr fun c hc => by simpa using (h c hc).2
  refine ⟨rfl, rfl, ?path, ?query, ?fragment, ?text⟩
  case path =>
    have hall : path.toList.takeWhile (fun c => c ≠ '?' ∧ c ≠ '#') = path.toList :=
      List.takeWhile_eq_self_iff.mpr fun c hc => by simpa using h c hc
    rw [Url.path, hall, String.ofList_toList]
  case query =>
    have hnone : path.toList.dropWhile (· ≠ '?') = [] :=
      List.dropWhile_eq_nil_iff.mpr fun c hc => by simpa using (h c hc).1
    simp only [Url.query?, hmark, hnone]
  case fragment =>
    have hnone : path.toList.dropWhile (· ≠ '#') = [] :=
      List.dropWhile_eq_nil_iff.mpr fun c hc => by simpa using (h c hc).2
    simp only [Url.fragment?, hnone]
  case text =>
    have hslashes : "://" = ":" ++ "//" := rfl
    simp only [Url.text, Option.map_some, Option.getD_some, hslashes, String.append_assoc]

end Url

/-! ## What reading comes to -/

/-- A fault that the text of an address can have. -/
def UrlError.OfText : UrlError → Prop
  | .pathlessBase | .unsupportedScheme _ | .cannotSwitchScheme => False
  | _ => True

/-- What is read is as it should be, or the text has a fault. -/
def Yields {α : Type} (P : α → Prop) : Except UrlError α → Prop
  | .ok a => P a
  | .error e => e.OfText

theorem Yields.bind {α β : Type} {P : α → Prop} {Q : β → Prop} {x : Except UrlError α}
    {f : α → Except UrlError β} (h : Yields P x) (hf : ∀ a, P a → Yields Q (f a)) : Yields Q (x >>= f) := by
  cases x with
  | ok a => exact hf a h
  | error e => exact h

/-- What reading makes sure of: an address of the web has a server, and its
port is left out if it is the scheme's own. -/
def Url.Sound (u : Url) : Prop :=
  schemeKind u.scheme = .web → ∃ a, u.authority = some a ∧ portFor u.scheme a.port = a.port

theorem portFor_portFor (scheme : String) (port : Option Nat) :
    portFor scheme (portFor scheme port) = portFor scheme port := by
  by_cases h : port = defaultPort scheme
  · simp [portFor, h]
  · simp [portFor, h]

theorem bracketed?_yields (cs : List Char) : Yields (fun _ => True) (bracketed? cs) := by
  unfold bracketed?
  split
  · split <;> trivial
  · trivial

theorem webHost?_yields (form : NameForm) (cs : List Char) : Yields (fun _ => True) (webHost? form cs) := by
  unfold webHost?
  split
  · exact bracketed?_yields _
  · split
    · trivial
    · split
      · trivial
      · split
        · split <;> trivial
        · trivial

theorem otherHost?_yields (cs : List Char) : Yields (fun _ => True) (otherHost? cs) := by
  unfold otherHost?
  split
  · exact bracketed?_yields _
  · split <;> trivial

theorem hostOf_yields (form : NameForm) (kind : SchemeKind) (cs : List Char) :
    Yields (fun _ => True) (hostOf form kind cs) := by
  unfold hostOf
  split
  · exact webHost?_yields form cs
  · exact otherHost?_yields cs

theorem readPort_yields (cs : List Char) : Yields (fun _ => True) (readPort cs) := by
  unfold readPort
  split
  · unfold splitPort
    dsimp only
    generalize (!_ : Bool) = unended
    split <;> trivial
  · trivial

theorem readAuthority_yields (form : NameForm) (scheme : String) (cs : List Char) :
    Yields Url.Sound (readAuthority form scheme cs) := by
  unfold readAuthority
  dsimp only
  split
  · trivial
  · split
    · trivial
    · refine (hostOf_yields ..).bind fun host _ => (readPort_yields _).bind fun (port, rest) _ => ?_
      dsimp only
      split
      · trivial
      · exact fun _ => ⟨_, rfl, portFor_portFor scheme port⟩

theorem readFile_yields (form : NameForm) (cs : List Char) : Yields Url.Sound (readFile form cs) := by
  have hfile (authority : Option Authority) (tail : String) : Url.Sound ⟨"file", authority, tail⟩ :=
    fun h => absurd (show schemeKind "file" = .web from h) (by decide)
  unfold readFile
  split
  · split
    · dsimp only
      split
      · exact hfile _ _
      · exact (webHost?_yields ..).bind fun host _ => hfile _ _
    · exact hfile _ _
  · exact hfile _ _

/-- **Reading an address** gives a sound one, or fails for a fault of its text. -/
theorem parseWith_yields (form : NameForm) (base : String) : Yields Url.Sound (Url.parseWith form base) := by
  unfold Url.parseWith
  split
  · trivial
  · next scheme rest _ =>
    cases hk : schemeKind scheme with
    | web => exact readAuthority_yields ..
    | file => exact readFile_yields ..
    | other =>
      dsimp only
      split
      · exact readAuthority_yields ..
      · exact fun h => absurd (hk.symm.trans h) (by decide)

/-! ## Endpoints -/

theorem channelScheme?_eq_some_iff {scheme channel : String} : channelScheme? scheme = some channel ↔
    scheme = "http" ∧ channel = "ws" ∨ scheme = "https" ∧ channel = "wss" := by
  unfold channelScheme?
  split
  · next h => simp [h, eq_comm]
  · split
    · next h => simp [h, eq_comm]
    · next h h' => simp [h, h']

theorem channelScheme?_eq_none_iff {scheme : String} :
    channelScheme? scheme = none ↔ scheme ≠ "http" ∧ scheme ≠ "https" := by
  unfold channelScheme?
  split
  · next h => simp [h]
  · split
    · next h => simp [h]
    · next h h' => simp [h, h']

/-- A web scheme and that of its channel are of the web, and have one port. -/
theorem channelScheme?_web {scheme channel : String} (h : channelScheme? scheme = some channel) :
    schemeKind scheme = .web ∧ schemeKind channel = .web ∧ defaultPort channel = defaultPort scheme := by
  rcases channelScheme?_eq_some_iff.mp h with ⟨rfl, rfl⟩ | ⟨rfl, rfl⟩ <;> decide

namespace Endpoints

theorem ofUrl_of_web {u : Url} (hu : u.Sound) {channel : String} (h : channelScheme? u.scheme = some channel) :
    ∃ a, u.authority = some a ∧ ofUrl u = .ok ⟨⟨u.scheme, some a, "/api/bootstrap"⟩, ⟨channel, some a, "/ws/run"⟩⟩ := by
  obtain ⟨hweb, hchannel, hport⟩ := channelScheme?_web h
  obtain ⟨a, ha, hp⟩ := hu hweb
  refine ⟨a, ha, ?_⟩
  -- the port is as good for the channel as it was for the server
  have hp' : portFor channel a.port = a.port := by
    unfold portFor at *
    rwa [hport]
  have hpath : u.hasPath = true := by simp [Url.hasPath, hweb]
  have hrun : Url.withScheme? ⟨u.scheme, some a, "/ws/run"⟩ channel = some ⟨channel, some a, "/ws/run"⟩ := by
    simp [Url.withScheme?, hweb, hchannel, hp']
  simp only [ofUrl, h, Url.join, hpath, if_true, bind, Except.bind, hrun, ha]
  rfl

theorem ofUrl_of_other {u : Url} (h : channelScheme? u.scheme = none) :
    ofUrl u = .error (.unsupportedScheme u.scheme) := by
  simp only [ofUrl, h]
  rfl

/-- **What becomes of an address**: its text has a fault, its scheme is not of
the web, or both endpoints are at its server. -/
theorem ofBaseWith_cases (form : NameForm) (base : String) :
    (∃ e, Url.parseWith form base = .error e ∧ e.OfText ∧ ofBaseWith form base = .error ⟨base, e⟩) ∨
    (∃ u, Url.parseWith form base = .ok u ∧ channelScheme? u.scheme = none ∧
      ofBaseWith form base = .error ⟨base, .unsupportedScheme u.scheme⟩) ∨
    ∃ u a channel, Url.parseWith form base = .ok u ∧ u.authority = some a ∧
      channelScheme? u.scheme = some channel ∧
      ofBaseWith form base = .ok ⟨⟨u.scheme, some a, "/api/bootstrap"⟩, ⟨channel, some a, "/ws/run"⟩⟩ := by
  have hy := parseWith_yields form base
  cases hp : Url.parseWith form base with
  | error e =>
    rw [hp] at hy
    exact .inl ⟨e, rfl, hy, by simp [ofBaseWith, hp, Except.bind]⟩
  | ok u =>
    rw [hp] at hy
    cases hc : channelScheme? u.scheme with
    | none => exact .inr (.inl ⟨u, rfl, hc, by simp [ofBaseWith, hp, Except.bind, ofUrl_of_other hc]⟩)
    | some channel =>
      obtain ⟨a, ha, he⟩ := ofUrl_of_web hy hc
      exact .inr (.inr ⟨u, a, channel, rfl, ha, hc, by simp [ofBaseWith, hp, Except.bind, he]⟩)

variable {form : NameForm} {base : String}

theorem exists_ofBaseWith_iff : (∃ e, ofBaseWith form base = .ok e) ↔
    ∃ u, Url.parseWith form base = .ok u ∧ (u.scheme = "http" ∨ u.scheme = "https") := by
  obtain ⟨e, hp, -, hb⟩ | ⟨u, hp, hc, hb⟩ | ⟨u, a, channel, hp, -, hc, hb⟩ := ofBaseWith_cases form base
  · simp [hp, hb]
  · simp [hp, hb, channelScheme?_eq_none_iff.mp hc]
  · have hweb : u.scheme = "http" ∨ u.scheme = "https" :=
      (channelScheme?_eq_some_iff.mp hc).imp And.left And.left
    simp [hp, hb, hweb]

/-- The fault of a text without endpoints. -/
theorem ofBaseWith_eq_error_iff {f : ServerUrlError} : ofBaseWith form base = .error f ↔ f.url = base ∧
    (Url.parseWith form base = .error f.reason ∨
      ∃ u, Url.parseWith form base = .ok u ∧ u.scheme ≠ "http" ∧ u.scheme ≠ "https" ∧
        f.reason = .unsupportedScheme u.scheme) := by
  obtain ⟨url, reason⟩ := f
  obtain ⟨e, hp, -, hb⟩ | ⟨u, hp, hc, hb⟩ | ⟨u, a, channel, hp, -, hc, hb⟩ := ofBaseWith_cases form base
  · simp [hp, hb, eq_comm]
  · have hother := channelScheme?_eq_none_iff.mp hc
    simp [hp, hb, hother.1, hother.2, @eq_comm _ base, @eq_comm _ reason]
  · have hweb := (channelScheme?_eq_some_iff.mp hc).imp And.left And.left
    rw [hp, hb]
    constructor
    · nofun
    · rintro ⟨-, h | ⟨u', ⟨⟩, hhttp, hhttps, -⟩⟩
      · cases h
      · exact absurd hweb (not_or.mpr ⟨hhttp, hhttps⟩)

/-- A path means something beside any web address, and its scheme can be changed. -/
theorem reason_of_ofBaseWith_eq_error {f : ServerUrlError} (h : ofBaseWith form base = .error f) :
    f.reason ≠ .cannotSwitchScheme ∧ f.reason ≠ .pathlessBase := by
  obtain ⟨e, -, he, hb⟩ | ⟨u, -, -, hb⟩ | ⟨u, a, channel, -, -, -, hb⟩ := ofBaseWith_cases form base
  · rw [hb] at h
    cases h
    constructor <;> rintro rfl <;> exact he
  · rw [hb] at h
    cases h
    simp
  · rw [hb] at h
    cases h

end Endpoints

/-- **The endpoints are at the server that is given**, however host names are
put into ASCII. A text has endpoints exactly if it is an address with the
scheme http or https. They have its credentials, its host and the port it asks,
and nothing of its path, its query or its fragment. Any other text is handed
back with its own fault, or with the scheme that is not supported; changing the
scheme never fails. -/
theorem endpoints_at_server (form : NameForm) (base : String) :
    ((∃ e, Endpoints.ofBaseWith form base = .ok e) ↔
      ∃ u, Url.parseWith form base = .ok u ∧ (u.scheme = "http" ∨ u.scheme = "https")) ∧
    (∀ e, Endpoints.ofBaseWith form base = .ok e → ∃ u server channel,
      Url.parseWith form base = .ok u ∧ u.authority = some server ∧
      (u.scheme = "http" ∧ channel = "ws" ∨ u.scheme = "https" ∧ channel = "wss") ∧
      e.bootstrap.PointsTo u.scheme server "/api/bootstrap" ∧ e.bootstrap.effectivePort = u.effectivePort ∧
      e.run.PointsTo channel server "/ws/run" ∧ e.run.effectivePort = u.effectivePort) ∧
    (∀ f, Endpoints.ofBaseWith form base = .error f ↔ f.url = base ∧
      (Url.parseWith form base = .error f.reason ∨
        ∃ u, Url.parseWith form base = .ok u ∧ u.scheme ≠ "http" ∧ u.scheme ≠ "https" ∧
          f.reason = .unsupportedScheme u.scheme)) ∧
    ∀ f, Endpoints.ofBaseWith form base = .error f →
      f.reason ≠ .cannotSwitchScheme ∧ f.reason ≠ .pathlessBase := by
  refine ⟨Endpoints.exists_ofBaseWith_iff, fun e he => ?_, fun f => Endpoints.ofBaseWith_eq_error_iff,
    fun f => Endpoints.reason_of_ofBaseWith_eq_error⟩
  obtain ⟨_, -, -, hb⟩ | ⟨_, -, -, hb⟩ | ⟨u, server, channel, hp, hs, hc, hb⟩ :=
    Endpoints.ofBaseWith_cases form base <;> rw [hb] at he <;> cases he
  have hport := (channelScheme?_web hc).2.2
  refine ⟨u, server, channel, hp, hs, channelScheme?_eq_some_iff.mp hc, Url.pointsTo_of_plain (by simp), ?_,
    Url.pointsTo_of_plain (by simp), ?_⟩
  · simp [Url.effectivePort, hs]
  · simp [Url.effectivePort, hs, hport]

/-- A port that is the default of another scheme stays, one of its own goes. -/
example : ["https://u:p@[::1]:80/x?y#z", "HTTP://Farm.Example:0080\\x"].map (fun base =>
      (Endpoints.ofBase base).toOption.map fun e => (e.bootstrap.text, e.run.text)) =
    [some ("https://u:p@[::1]:80/api/bootstrap", "wss://u:p@[::1]:80/ws/run"),
      some ("http://farm.example/api/bootstrap", "ws://farm.example/ws/run")] := by decide +kernel

end FarmClient.Terminal
