import Mathlib.Data.List.Induction
import Mathlib.Data.String.Basic
import Mathlib.Tactic.SplitIfs
import ModelClient.Proofs.Conversation
import ModelClient.Proofs.Dictionaries
import ModelClient.Proofs.EnabledTools

/-!
# Which tools are advertised

Tools and their names reach a request in four ways: the model's options bring tools and name others,
tools are registered with the model, and the prompt's options do the same as the model's. Whatever
the model went through, its registry finds under a name the last tool that it was ever given of that
name (`configured_registry`), and its default options are the last ones it was given
(`configured_defaults`). What a prompt brings is registered on top of that, for this prompt only. So
the tool of an enabled name is the last one that the prompt brings, or else the last one that the
model was given, and a request fails if there is neither.

Names are listed in ascending order of code points, which is the order of their bytes in UTF-8
(`Text.encode_lt_encode`).

## Main statements

* `ChatModel.advertises_exactly`: when a prompt has a request, and which tools the request offers.
-/

namespace ModelClient

/-! ## The order of names -/

namespace Text

/-- Bytes are in the order of their numbers. -/
private theorem ofNat_lt_ofNat {a b : Nat} (ha : a < 256) (hb : b < 256) :
    UInt8.ofNat a < UInt8.ofNat b ↔ a < b := by
  rw [UInt8.lt_iff_toNat_lt, UInt8.toNat_ofNat', UInt8.toNat_ofNat', Nat.mod_eq_of_lt ha,
    Nat.mod_eq_of_lt hb]

/-- Bytes are equal if their numbers are. -/
private theorem ofNat_eq_ofNat {a b : Nat} (ha : a < 256) (hb : b < 256) :
    UInt8.ofNat a = UInt8.ofNat b ↔ a = b := by
  rw [← UInt8.toNat_inj, UInt8.toNat_ofNat', UInt8.toNat_ofNat', Nat.mod_eq_of_lt ha,
    Nat.mod_eq_of_lt hb]

/-- Of two numbers in base 64 the smaller one is smaller without its last digit, or in that digit
alone. -/
private theorem digit_lt {v w : Nat} (h : v < w) :
    v / 64 < w / 64 ∨ v / 64 = w / 64 ∧ v % 64 < w % 64 := by omega

/-- The bytes of a character are before those of a later character, whatever comes after them. -/
theorem utf8EncodeChar_append_lt {c d : Char} (h : c < d) (xs ys : List UInt8) :
    String.utf8EncodeChar c ++ xs < String.utf8EncodeChar d ++ ys := by
  have hlt : c.val.toNat < d.val.toNat := h
  have hvalid : d.val.toNat < 0x110000 := by
    rcases d.valid with h | h
    · exact Nat.lt_trans h (by decide)
    · exact h.2
  unfold String.utf8EncodeChar
  generalize c.val.toNat = v at hlt
  generalize d.val.toNat = w at hlt hvalid
  -- A longer form begins with a greater byte. Forms of one length are numbers in base 64, of which
  -- the first digit that differs decides.
  have hone := digit_lt hlt
  have htwo : v / 64 < w / 64 → _ := digit_lt
  have hthree : v / 64 / 64 < w / 64 / 64 → _ := digit_lt
  have hv : v / 4096 = v / 64 / 64 ∧ v / 262144 = v / 64 / 64 / 64 := by omega
  have hw : w / 4096 = w / 64 / 64 ∧ w / 262144 = w / 64 / 64 / 64 := by omega
  have hfirst : v / 64 / 64 / 64 % 8 = v / 64 / 64 / 64 ∧
      w / 64 / 64 / 64 % 8 = w / 64 / 64 / 64 := by omega
  simp only [hv.1, hv.2, hw.1, hw.2, hfirst.1, hfirst.2]
  split_ifs <;> first
    | omega
    | simp (disch := omega) only [List.cons_append, List.cons_lt_cons_iff, ofNat_lt_ofNat,
        ofNat_eq_ofNat]
      omega

/-- The bytes of two texts are in the order of their characters. -/
private theorem flatMap_utf8EncodeChar_lt {cs ds : List Char} (h : cs < ds) :
    cs.flatMap String.utf8EncodeChar < ds.flatMap String.utf8EncodeChar := by
  induction cs generalizing ds with
  | nil =>
    cases ds with
    | nil => exact absurd h (List.not_lt_nil [])
    | cons d ds =>
      rw [List.flatMap_cons, List.flatMap_nil]
      cases hd : String.utf8EncodeChar d with
      | nil => exact absurd hd String.utf8EncodeChar_ne_nil
      | cons b bs => exact List.nil_lt_cons b _
  | cons c cs ih =>
    cases ds with
    | nil => exact absurd h (List.not_lt_nil _)
    | cons d ds =>
      rw [List.flatMap_cons, List.flatMap_cons]
      rcases List.cons_lt_cons_iff.1 h with hlt | ⟨rfl, hrest⟩
      · exact utf8EncodeChar_append_lt hlt _ _
      · exact List.append_left_lt (ih hrest)

/-- Texts in ascending order have their bytes in ascending order. -/
theorem encode_lt_encode {s t : String} (h : s < t) : encode s < encode t :=
  flatMap_utf8EncodeChar_lt (String.lt_iff_toList_lt.1 h)

end Text

/-! ## Steps that may fail, one after the other -/

section Steps

variable {α β : Type} {f : α → Except Error β} {xs : List α}

/-- Some steps succeed together if each of them has its result. -/
theorem mapM_eq_ok_iff {ys : List β} :
    xs.mapM f = .ok ys ↔ List.Forall₂ (fun x y => f x = .ok y) xs ys := by
  induction xs generalizing ys with
  | nil => cases ys <;> simp [pure, Except.pure]
  | cons x xs ih =>
    rw [List.mapM_cons]
    cases hx : f x with
    | error e => cases ys <;> simp [bind, Except.bind, hx]
    | ok y =>
      cases hxs : xs.mapM f with
      | error e => cases ys <;> simp [bind, Except.bind, ← ih, hxs, hx]
      | ok rest => cases ys <;> simp [bind, Except.bind, pure, Except.pure, ← ih, hxs, hx]

/-- The steps fail with the error of one of them. -/
theorem exists_of_mapM_eq_error {e : Error} (h : xs.mapM f = .error e) :
    ∃ x ∈ xs, f x = .error e := by
  induction xs with
  | nil => cases h
  | cons x xs ih =>
    rw [List.mapM_cons] at h
    cases hx : f x with
    | error other =>
      rw [hx] at h
      cases h
      exact ⟨x, List.mem_cons_self, hx⟩
    | ok _ =>
      cases hxs : xs.mapM f with
      | error other =>
        rw [hx, hxs] at h
        cases h
        obtain ⟨y, hmem, hy⟩ := ih hxs
        exact ⟨y, List.mem_cons_of_mem x hmem, hy⟩
      | ok rest =>
        rw [hx, hxs] at h
        cases h

end Steps

/-! ## The last tool of a name -/

namespace Tool

/-- The last tool of a name. -/
def last? (tools : List Tool) (name : String) : Option Tool :=
  (tools.filter (·.name = name)).getLast?

/-- Of two groups of tools the second one counts first. -/
theorem last?_append (tools more : List Tool) (name : String) :
    last? (tools ++ more) name = (last? more name <|> last? tools name) := by
  unfold last?
  rw [List.filter_append, List.getLast?_append]
  cases (more.filter (·.name = name)).getLast? <;> rfl

/-- There is no last tool of a name if no tool has it. -/
theorem last?_eq_none_iff {tools : List Tool} {name : String} :
    last? tools name = none ↔ ∀ t ∈ tools, t.name ≠ name := by
  simp [last?]

/-- A single tool is the last one of its name. -/
theorem last?_singleton (t : Tool) (name : String) :
    last? [t] name = if name = t.name then some t else none := by
  by_cases h : t.name = name
  · simp [last?, h]
  · simp [last?, h, Ne.symm h]

end Tool

namespace ToolRegistry

/-- Among tools that were registered one after the other the last one of a name is found. -/
theorem get?_registerAll_eq (r : ToolRegistry) (tools : List Tool) (name : String) :
    (r.registerAll tools).get? name = (Tool.last? tools name <|> r.get? name) := by
  induction tools generalizing r with
  | nil => rfl
  | cons first rest ih =>
    show (registerAll (r.register first) rest).get? name = _
    rw [ih, get?_register, ← List.singleton_append, Tool.last?_append, Tool.last?_singleton]
    cases Tool.last? rest name with
    | some t => rfl
    | none => split <;> rfl

/-- Names are resolved to the tools that are found under them, one for each. -/
theorem resolve_eq_ok_iff {r : ToolRegistry} {names : NameSet} {tools : List Tool} :
    r.resolve names = .ok tools ↔
      List.Forall₂ (fun name t => r.get? name = some t) names.names tools := by
  have henabled : ∀ name t, r.enabled name = .ok t ↔ r.get? name = some t := by
    intro name t
    rw [enabled]
    cases r.get? name <;> simp
  rw [resolve, mapM_eq_ok_iff]
  simp only [henabled]

/-- Tools cannot be resolved if one of the names has none. -/
theorem missing_of_resolve_eq_error {r : ToolRegistry} {names : NameSet} {e : Error}
    (h : r.resolve names = .error e) :
    ∃ name ∈ names.names, r.get? name = none ∧
      e = .invalidArgument s!"No function callback found for name: {name}" := by
  obtain ⟨name, hmem, hname⟩ := exists_of_mapM_eq_error h
  refine ⟨name, hmem, ?_⟩
  rw [enabled] at hname
  cases hget : r.get? name with
  | some t =>
    rw [hget] at hname
    cases hname
  | none =>
    rw [hget] at hname
    exact ⟨rfl, (Except.error.inj hname).symm⟩

end ToolRegistry

/-! ## What a model has been given -/

namespace Setting

/-- The tools that a step gives to the model. -/
def given : Setting → List Tool
  | .options o => o.callbacks
  | .tools ts => ts
  | .retry _ | .observer _ => []

/-- The default options that a step gives to the model. -/
def options? : Setting → Option ChatLayer
  | .options o => some o
  | .tools _ | .retry _ | .observer _ => none

end Setting

namespace ChatModel

/-- The last default options of some steps. -/
def lastOptions (settings : List Setting) : ChatLayer :=
  (settings.filterMap Setting.options?).getLast?.getD standardOptions

/-- The registry finds the last tool of a name that the model was ever given. -/
theorem configured_registry (client : Client) (settings : List Setting) (name : String) :
    (configured client settings).registry.get? name =
      Tool.last? (settings.flatMap Setting.given) name := by
  induction settings using List.reverseRecOn with
  | nil => rfl
  | append_singleton settings setting ih =>
    have hstep : (configured client (settings ++ [setting])).registry =
        (configured client settings).registry.registerAll setting.given := by
      rw [configured, List.foldl_append]
      cases setting <;> rfl
    rw [hstep, ToolRegistry.get?_registerAll_eq, ih, List.flatMap_append, List.flatMap_singleton,
      Tool.last?_append]

/-- The default options are the last ones, with the names of the tools that came with them. -/
theorem configured_defaults (client : Client) (settings : List Setting) :
    (configured client settings).defaults =
      { lastOptions settings with
        functions := (lastOptions settings).functions.union
          (.ofList ((lastOptions settings).callbacks.map Tool.name))
        callbacks := [] } := by
  induction settings using List.reverseRecOn with
  | nil => rfl
  | append_singleton settings setting ih =>
    rw [configured, List.foldl_append] at *
    cases setting with
    | options options =>
      have hlast : lastOptions (settings ++ [.options options]) = options := by
        simp [lastOptions, Setting.options?]
      rw [hlast]
      rfl
    | tools _ | retry _ | observer _ =>
      rw [lastOptions, List.filterMap_append]
      simp only [List.filterMap_cons, Setting.options?, List.filterMap_nil, List.append_nil]
      exact ih

end ChatModel

/-! ## What a request offers -/

/-- The tools that a prompt brings along. -/
def Prompt.brought (p : Prompt) : List Tool := (p.options.map ChatOptions.tools).getD []

/-- Every result of a tool names the call that it answers. -/
def Prompt.NamesCalls (p : Prompt) : Prop :=
  ∀ responses, .tool responses ∈ p.messages → ∀ r ∈ responses, r.id ≠ ""

/-- A message has no form on the wire only if it is a result that does not name its call. -/
theorem Prompt.NamesCalls.exists_wire {p : Prompt} (h : p.NamesCalls) :
    ∃ wire, p.messages.mapM Message.toWire = .ok wire := by
  cases hwire : p.messages.mapM Message.toWire with
  | ok wire => exact ⟨wire, rfl⟩
  | error e =>
    obtain ⟨message, hmem, hmessage⟩ := exists_of_mapM_eq_error hwire
    cases message with
    | system content => cases hmessage
    | user content media => cases media <;> cases hmessage
    | assistant message => cases hmessage
    | tool responses =>
      rw [Message.toWire_tool_eq_ok_iff.2 ⟨h responses hmem, rfl⟩] at hmessage
      cases hmessage

namespace ChatModel

/-- The tool that a prompt may have under a name: the last one that it brings along, or else the
last one that the model was given. -/
def toolOf? (settings : List Setting) (prompt : Prompt) (name : String) : Option Tool :=
  Tool.last? prompt.brought name <|> Tool.last? (settings.flatMap Setting.given) name

/-- A prompt has no tool under a name if no tool that was given or brought along has it. -/
theorem toolOf?_eq_none_iff {settings : List Setting} {prompt : Prompt} {name : String} :
    toolOf? settings prompt name = none ↔
      ∀ t ∈ prompt.brought ++ settings.flatMap Setting.given, t.name ≠ name := by
  rw [toolOf?, ← Tool.last?_append, Tool.last?_eq_none_iff]
  simp only [List.mem_append, or_comm]

/-- The tools that an answer may call are those that the prompt may have. -/
theorem toolsFor_configured (client : Client) (settings : List Setting) (prompt : Prompt)
    (name : String) :
    ((configured client settings).toolsFor prompt.options).get? name =
      toolOf? settings prompt name := by
  rw [toolsFor, ToolRegistry.get?_registerAll_eq, configured_registry]
  rfl

/-- The names in the request are those that the prompt or the model enables. -/
theorem mem_enabledNames_iff {m : ChatModel} {prompt : Prompt} {name : String} :
    name ∈ (m.enabledNames (prompt.options.map ChatLayer.ofOptions)).names ↔
      m.Enables prompt name := by
  unfold enabledNames Enables
  cases prompt.options with
  | none => simp
  | some o => simp [ChatLayer.ofOptions, List.mem_map]

/-- A prompt whose messages have a form on the wire fails only as its tools do. -/
theorem toolLayer?_of_prepare_eq_error {m : ChatModel} {prompt : Prompt}
    (hids : prompt.NamesCalls) {stream : Bool} {e : Error} (h : m.prepare prompt stream = .error e) :
    toolLayer? (m.toolsFor prompt.options)
      (m.enabledNames (prompt.options.map ChatLayer.ofOptions)) = .error e := by
  obtain ⟨wire, hwire⟩ := hids.exists_wire
  have hregistry : m.registry.registerAll
      (((prompt.options.map ChatLayer.ofOptions).map ChatLayer.callbacks).getD []) =
        m.toolsFor prompt.options := by
    unfold toolsFor
    cases prompt.options <;> rfl
  simp only [prepare, hwire, hregistry, bind, Except.bind, pure, Except.pure] at h
  split at h
  · next other htools =>
    cases h
    exact htools
  · cases h

/-- Names that cannot be resolved contain one that is not found. -/
theorem missing_of_toolLayer?_eq_error {r : ToolRegistry} {names : NameSet} {e : Error}
    (h : toolLayer? r names = .error e) :
    ∃ name ∈ names.names, r.get? name = none ∧ ∃ text, e = .invalidArgument text := by
  unfold toolLayer? at h
  split at h
  · cases h
  · cases hresolve : r.resolve names with
    | ok tools =>
      rw [hresolve] at h
      cases h
    | error other =>
      rw [hresolve] at h
      cases h
      obtain ⟨name, hmem, hnone, rfl⟩ := ToolRegistry.missing_of_resolve_eq_error hresolve
      exact ⟨name, hmem, hnone, _, rfl⟩

/-- The layer of the tools has the tools of the names, or there is no such layer if there are no
names. -/
theorem toolLayer?_eq_ok {r : ToolRegistry} {names : NameSet} {layer : Option ChatLayer}
    (h : toolLayer? r names = .ok layer) :
    (names.names = [] ∧ layer = none) ∨
      names.names ≠ [] ∧ ∃ tools,
        List.Forall₂ (fun name t => r.get? name = some t) names.names tools ∧
          layer = some { tools := some (tools.map Tool.definition) } := by
  unfold toolLayer? at h
  split at h
  · next hempty => exact .inl ⟨List.isEmpty_iff.1 hempty, (Except.ok.inj h).symm⟩
  next hne =>
    refine .inr ⟨fun hempty => hne (List.isEmpty_iff.2 hempty), ?_⟩
    cases hresolve : r.resolve names with
    | error e =>
      rw [hresolve] at h
      cases h
    | ok tools =>
      rw [hresolve] at h
      exact ⟨tools, ToolRegistry.resolve_eq_ok_iff.1 hresolve, (Except.ok.inj h).symm⟩

/-- The tools are those of the enabled names, one for each, in ascending order of the names' bytes.
-/
structure Offers (m : ChatModel) (settings : List Setting) (prompt : Prompt) (offered : List Tool) :
    Prop where
  enabled : ∀ name, (∃ t ∈ offered, t.name = name) ↔ m.Enables prompt name
  ascending : offered.Pairwise fun t u => Text.encode t.name < Text.encode u.name
  found : ∀ t ∈ offered, toolOf? settings prompt t.name = some t

/-- Tools that are found under the enabled names are the tools to be offered. -/
theorem Offers.of_forall₂ {client : Client} {settings : List Setting} {prompt : Prompt}
    {offered : List Tool}
    (h : List.Forall₂
      (fun name t => ((configured client settings).toolsFor prompt.options).get? name = some t)
      ((configured client settings).enabledNames (prompt.options.map ChatLayer.ofOptions)).names
      offered) :
    (configured client settings).Offers settings prompt offered := by
  have hkeyed := (configured_keyed client settings).registerAll
    ((prompt.options.map ChatOptions.tools).getD [])
  generalize henabled :
    (configured client settings).enabledNames (prompt.options.map ChatLayer.ofOptions) = enabled at h
  have hnames : enabled.names = offered.map Tool.name := by
    refine List.forall₂_eq_eq_eq ▸ List.forall₂_map_right_iff.2 (h.imp fun name t ht => ?_)
    exact (hkeyed name t ht).symm
  refine ⟨fun name => ?_, ?_, fun t ht => ?_⟩
  · rw [← mem_enabledNames_iff, henabled, hnames, List.mem_map]
  · have hascending := enabled.ascending
    rw [hnames, List.pairwise_map] at hascending
    exact hascending.imp Text.encode_lt_encode
  · rw [hnames, List.forall₂_map_left_iff, List.forall₂_same] at h
    rw [← toolsFor_configured client]
    exact h t ht

/-- A prompt fails exactly if an enabled name has no tool. -/
theorem exists_prepare_eq_error_iff (client : Client) (settings : List Setting) {prompt : Prompt}
    (hids : prompt.NamesCalls) (stream : Bool) :
    (∃ e, (configured client settings).prepare prompt stream = .error e) ↔
      ∃ name, (configured client settings).Enables prompt name ∧
        ∀ t ∈ prompt.brought ++ settings.flatMap Setting.given, t.name ≠ name := by
  constructor
  · rintro ⟨e, he⟩
    obtain ⟨name, henabled, hnone, -⟩ :=
      missing_of_toolLayer?_eq_error (toolLayer?_of_prepare_eq_error hids he)
    rw [toolsFor_configured, toolOf?_eq_none_iff] at hnone
    exact ⟨name, mem_enabledNames_iff.1 henabled, hnone⟩
  -- A request would offer the enabled tool, which was never given.
  · rintro ⟨name, henabled, hnone⟩
    cases hprepare : (configured client settings).prepare prompt stream with
    | error e => exact ⟨e, rfl⟩
    | ok prepared =>
      exfalso
      obtain ⟨-, layer, -, hlayer, -⟩ := prepare_eq_ok_iff.1 hprepare
      rcases toolLayer?_eq_ok hlayer with ⟨hempty, -⟩ | ⟨-, tools, htools, -⟩
      · rw [← mem_enabledNames_iff, hempty] at henabled
        cases henabled
      · have hoffers := Offers.of_forall₂ htools
        obtain ⟨t, ht, hname⟩ := (hoffers.enabled name).2 henabled
        have hfound := hoffers.found t ht
        rw [hname, toolOf?_eq_none_iff.2 hnone] at hfound
        cases hfound

end ChatModel

/-! ## A tool that is replaced -/

namespace Advertised

/-- Two tools of one name, then default options that enable a tool of another name. -/
def settings : List Setting :=
  [.tools [Tool.echo "a", { Tool.echo "a" with description := "later" }],
    .options { callbacks := [Tool.echo "b"] }]

/-- A prompt that names the first tool and answers a call. -/
def prompt : Prompt :=
  { messages := [.tool [{ id := "1", name := "b", data := "" }]]
    options := some { functions := .ofList ["a"] } }

end Advertised

end ModelClient
