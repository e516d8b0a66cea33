import ModelClient.Proofs.AdvertisedTools

/-!
# Layers of options

Layers of options may be put together in any grouping. Of any number of layers, upper ones first,
`ChatLayer.combined` is what they come to at once: each option from the first layer that sets it,
the names of all and the tools of all. One layer above another is the case of two layers, and
several are put together one above the other (`ChatLayer.combined_append`), so some that stand next
to each other can be put together first. A layer that sets nothing stands for none.

It follows that the options which a model has anyway change nothing when a prompt carries them too:
every option is found where it is found without them, and a set of names united with itself is the
same set. The options that a prompt cannot carry stay those of the model. Its tools a model keeps in
its registry, so that its own options never bring any along (`ChatModel.callbacks_configured`).

## Main statements

* `ChatModel.options_regroup`: layers in any grouping, and a model's own options in a prompt.
-/

namespace ModelClient

namespace ChatLayer

/-- Some layers put together at once, the upper ones first. -/
def combined (layers : List ChatLayer) : ChatLayer :=
  { model := layers.findSome? model
    maxTokens := layers.findSome? maxTokens
    stop := layers.findSome? stop
    temperature := layers.findSome? temperature
    topP := layers.findSome? topP
    tools := layers.findSome? tools
    toolChoice := layers.findSome? toolChoice
    user := layers.findSome? user
    requestId := layers.findSome? requestId
    doSample := layers.findSome? doSample
    functions := .ofList (layers.flatMap (·.functions.names))
    callbacks := layers.flatMap callbacks
    proxyToolCalls := layers.findSome? proxyToolCalls }

/-- The names of all layers are those of the upper ones united with those of the lower ones. -/
theorem functions_append (upper lower : List String) :
    NameSet.ofList (upper ++ lower) = (NameSet.ofList upper).union (.ofList lower) :=
  NameSet.ext_mem fun name => by simp

/-- The layers in front are above those behind. -/
theorem combined_append (upper lower : List ChatLayer) :
    combined (upper ++ lower) = (combined upper).onto (combined lower) := by
  simp [combined, onto, List.findSome?_append, functions_append]

@[simp]
theorem combined_nil : combined [] = {} := rfl

/-- A single layer is what it comes to. -/
@[simp]
theorem combined_singleton (l : ChatLayer) : combined [l] = l := by
  have hfunctions : NameSet.ofList l.functions.names = l.functions :=
    NameSet.ext_mem fun name => by simp
  simp [combined, hfunctions]

/-- A layer stands above what the lower ones come to. -/
theorem combined_cons (l : ChatLayer) (lower : List ChatLayer) :
    combined (l :: lower) = l.onto (combined lower) := by
  rw [← List.singleton_append, combined_append, combined_singleton]

/-- Some layers next to each other can be put together first. -/
theorem combined_regroup (above layers below : List ChatLayer) :
    combined (above ++ combined layers :: below) = combined (above ++ (layers ++ below)) := by
  rw [combined_append, combined_cons, ← combined_append layers, ← combined_append above]

/-- Nothing is changed by an empty layer above. -/
theorem empty_onto (l : ChatLayer) : ChatLayer.onto {} l = l := by
  rw [← combined_nil, ← combined_singleton l, ← combined_append, List.nil_append]

/-- Nothing is changed by an empty layer below. -/
theorem onto_empty (l : ChatLayer) : l.onto {} = l := by
  rw [← combined_nil, ← combined_cons, combined_singleton]

/-- Picking an option from three layers is finding it in the list of those that are there. -/
theorem pick_eq_findSome? {α : Type} (runtime request : Option ChatLayer) (defaults : ChatLayer)
    (field : ChatLayer → Option α) :
    pick runtime request defaults field =
      (runtime.toList ++ request.toList ++ [defaults]).findSome? field := by
  have hlast : [defaults].findSome? field = field defaults := by
    cases hfield : field defaults <;> simp [hfield]
  have hoption (layer : Option ChatLayer) : layer.toList.findSome? field = layer.bind field := by
    cases layer with
    | none => rfl
    | some l => cases hfield : field l <;> simp [hfield]
  rw [List.findSome?_append, List.findSome?_append, hoption, hoption, hlast, pick,
    Option.or_eq_orElse, Option.or_eq_orElse]
  rfl

/-- Three layers, of which the first two may be missing, come to what the list of those that are
there comes to. -/
theorem resolve_eq_combined (runtime request : Option ChatLayer) (defaults : ChatLayer) :
    resolve runtime request defaults =
      combined (runtime.toList ++ request.toList ++ [defaults]) := by
  have hlayers : [runtime, request, some defaults].filterMap id =
      runtime.toList ++ request.toList ++ [defaults] := by
    cases runtime <;> cases request <;> rfl
  simp only [resolve, combined, pick_eq_findSome?, hlayers]

/-- Three layers are put together two by two. -/
theorem resolve_eq_onto (runtime request : Option ChatLayer) (defaults : ChatLayer) :
    resolve runtime request defaults =
      (runtime.getD {}).onto ((request.getD {}).onto defaults) := by
  rw [resolve_eq_combined, List.append_assoc, combined_append, combined_append,
    combined_singleton]
  cases runtime <;> cases request <;> simp

/-! ## The options of a model in a prompt -/

/-- A layer without tools is not changed by its own options above it. -/
theorem onto_ofOptions_toOptions {l : ChatLayer} (h : l.callbacks = []) :
    (ofOptions l.toOptions).onto l = l := by
  have hfunctions : l.functions.union l.functions = l.functions :=
    NameSet.ext_mem fun name => by simp
  -- of every other option, either the prompt has none or it has that of the model
  cases l
  simp_all [onto, ofOptions, toOptions]

end ChatLayer

namespace ChatModel

/-- The options that a model is configured with bring no tools along. -/
theorem callbacks_configured (client : Client) (settings : List Setting) :
    (configured client settings).defaults.callbacks = [] := by
  rw [configured_defaults]

/-- The names that a model's own options enable are those that it enables without them. -/
theorem enabledNames_defaultOptions {m : ChatModel} (h : m.defaults.callbacks = []) :
    m.enabledNames (some (.ofOptions m.defaultOptions)) = m.enabledNames none := by
  refine NameSet.ext_mem fun name => ?_
  simp [enabledNames, ChatLayer.ofOptions, defaultOptions, ChatLayer.toOptions, h]

/-- A prompt with the options of the model gets the request, or the error, of one without. -/
theorem prepare_defaultOptions {m : ChatModel} (h : m.defaults.callbacks = [])
    (messages : List Message) (stream : Bool) :
    m.prepare { messages, options := some m.defaultOptions } stream =
      m.prepare { messages } stream := by
  have hnames := enabledNames_defaultOptions h
  have hcallbacks : (ChatLayer.ofOptions m.defaultOptions).callbacks = [] := h
  have hresolve (tools : Option ChatLayer) :
      ChatLayer.resolve tools (some (.ofOptions m.defaultOptions)) m.defaults =
        ChatLayer.resolve tools none m.defaults := by
    have honto := ChatLayer.onto_ofOptions_toOptions h
    rw [ChatLayer.resolve_eq_onto, ChatLayer.resolve_eq_onto, defaultOptions]
    simp only [Option.getD_some, Option.getD_none, honto, ChatLayer.empty_onto]
  have hproxies : proxiesToolCalls (ChatLayer.ofOptions m.defaultOptions).proxyToolCalls
      m.defaults.proxyToolCalls = proxiesToolCalls none m.defaults.proxyToolCalls := by
    show proxiesToolCalls m.defaults.proxyToolCalls m.defaults.proxyToolCalls = _
    cases m.defaults.proxyToolCalls <;> rfl
  simp only [prepare, Option.map_some, Option.map_none, Option.getD_some, Option.getD_none,
    Option.bind_some, Option.bind_none, hnames, hcallbacks, hresolve, hproxies]

/-- Layers of options come to the same in any grouping. A model, however it has been set up, makes
the same of a prompt that carries the model's own options as of one that carries none. -/
theorem options_regroup :
    (∀ runtime request defaults, ChatLayer.resolve runtime request defaults =
      .combined (runtime.toList ++ request.toList ++ [defaults])) ∧
    (∀ above layers below, ChatLayer.combined (above ++ .combined layers :: below) =
      .combined (above ++ (layers ++ below))) ∧
    (∀ runtime request defaults, ChatLayer.resolve (some runtime) (some request) defaults =
      .resolve none (some runtime) (.resolve none (some request) defaults)) ∧
    (∀ request defaults, ChatLayer.resolve none request defaults =
      .resolve (some {}) request defaults) ∧
    (∀ runtime defaults, ChatLayer.resolve runtime none defaults =
      .resolve runtime (some {}) defaults) ∧
    ∀ client settings messages stream,
      (configured client settings).prepare
          { messages, options := some (configured client settings).defaultOptions } stream =
        (configured client settings).prepare { messages } stream := by
  refine ⟨ChatLayer.resolve_eq_combined, ChatLayer.combined_regroup,
    fun runtime request defaults => ?_, fun request defaults => ?_, fun runtime defaults => ?_,
    fun client settings => ?_⟩
  · simp only [ChatLayer.resolve_eq_onto, Option.getD_some, Option.getD_none, ChatLayer.empty_onto]
  · rw [ChatLayer.resolve_eq_onto, ChatLayer.resolve_eq_onto]
    rfl
  · rw [ChatLayer.resolve_eq_onto, ChatLayer.resolve_eq_onto]
    rfl
  · exact prepare_defaultOptions (callbacks_configured client settings)

end ChatModel

end ModelClient
