import ModelClient.Proofs.VariableTurns

/-!
# Overlays with an environment

An overlay looks variables up in order and stops at the first one that is not spelled right. So it
leaves the table of the settings (`Config.under`) for the variables before that one, and for all of
them if every one is spelled right (`Config.overlay_eq_or`). What is set before a failure is not
taken back; nothing has changed then only if the settings had these values before.

## Main statements

* `Config.overlay_settings`: when an overlay succeeds, and what it sets.
* `Config.overlay_failed`: what an overlay that fails leaves.
-/

namespace ModelClient

namespace Config

variable {lookup : String → Option String}

/-- The first of the variables that is not spelled right, those before it and its value. -/
structure EndsAt (lookup : String → Option String) (before : List String) (name value : String) :
    Prop where
  order : ∃ after, overlaid.map (·.name) = before ++ name :: after
  spelled : ∀ earlier ∈ before, IsSpelled lookup earlier
  given : given? lookup name = some value
  misspelled : ¬Spells name value

/-- An overlay that ends early has a variable that is not spelled right. -/
theorem EndsAt.not_wellSpelled {before : List String} {name value : String}
    (h : EndsAt lookup before name value) : ¬WellSpelled lookup := by
  intro hwell
  refine h.misspelled ⟨fun hflag => ?_, fun hnumber => ?_⟩
  · exact (hwell name (List.mem_append_left _ hflag) value h.given).flag hflag
  · exact (hwell name (List.mem_append_right _ hnumber) value h.given).number hnumber

/-- If all variables are spelled right, so are those with a truth value or a number. -/
theorem wellSpelled_of_forall (h : ∀ v ∈ overlaid, IsSpelled lookup v.name) :
    WellSpelled lookup := by
  have hnames : ∀ name ∈ flagNames ++ numberNames, name ∈ overlaid.map (·.name) := by decide
  intro name hname
  obtain ⟨v, hv, rfl⟩ := List.mem_map.1 (hnames name hname)
  exact h v hv

open Classical in
/-- An overlay has the turns of all variables, or of those before the first one that is not spelled
right. -/
theorem overlay_eq_or (c : Config) (lookup : String → Option String) :
    (WellSpelled lookup ∧ c.overlay lookup = (c.under lookup, none)) ∨
      ∃ before name value, EndsAt lookup before name value ∧
        c.overlay lookup = (c.under (only before lookup), some (invalidValue name value)) := by
  cases hfind : overlaid.find? fun v => ¬IsSpelled lookup v.name with
  | none =>
    have hspelled : ∀ v ∈ overlaid, IsSpelled lookup v.name := by
      simpa using List.find?_eq_none.1 hfind
    refine .inl ⟨wellSpelled_of_forall hspelled, ?_⟩
    have hrun := overlayFrom_append checks_overlaid hspelled [] c
    rw [List.append_nil, turns_overlaid] at hrun
    exact hrun
  | some v =>
    obtain ⟨hv, before, after, hoverlaid, hbefore⟩ := List.find?_eq_some_iff_append.1 hfind
    have hspelled : ∀ w ∈ before, IsSpelled lookup w.name := by simpa using hbefore
    obtain ⟨value, hgiven, hvalue⟩ : ∃ value, given? lookup v.name = some value ∧
        ¬Spells v.name value := by
      simpa [IsSpelled] using hv
    have hchecks : (∀ w ∈ before, w.Checks) ∧ v.Checks := by
      have h := checks_overlaid
      rw [hoverlaid, List.forall_mem_append, List.forall_mem_cons] at h
      exact ⟨h.1, h.2.1⟩
    refine .inr ⟨before.map (·.name), v.name, value, ?_, ?_⟩
    · exact {
        order := ⟨after.map (·.name), by rw [hoverlaid, List.map_append, List.map_cons]⟩
        spelled := by simpa using hspelled
        given := hgiven
        misspelled := hvalue }
    · rw [← turns_eq_under hoverlaid, overlay, hoverlaid, overlayFrom_append hchecks.1 hspelled,
        overlayFrom_of_not_spells hchecks.2 hgiven hvalue]

/-- A variable that is spelled right leaves a configuration as it is if the setting has its value.
-/
theorem turn_eq_self_iff {v : Variable} (hv : v ∈ overlaid) (hspelled : IsSpelled lookup v.name)
    (c : Config) : v.turn lookup c = c ↔ ∀ value ∈ given? lookup v.name, v.set value c = some c := by
  rw [Variable.turn]
  cases hgiven : given? lookup v.name with
  | none => exact iff_of_true rfl fun value h => absurd h (Option.not_mem_none value)
  | some value =>
    have hset : v.set value c ≠ none := fun hnone =>
      (checks_overlaid v hv value c).1 hnone (hspelled value hgiven)
    obtain ⟨next, hnext⟩ := Option.ne_none_iff_exists'.1 hset
    simp [hnext]

/-- Some variables leave a configuration as it is if each of them does. -/
theorem under_only_eq_self_iff (names : List String) (c : Config) :
    c.under (only names lookup) = c ↔ ∀ v ∈ overlaid, v.name ∈ names → v.turn lookup c = c := by
  constructor
  · intro h v hv hname
    have hagain : (c.under (only names lookup)).under (only [v.name] lookup) =
        c.under (only names lookup) := by
      refine under_under (fun n => ?_) c
      by_cases hn : n ∈ [v.name]
      · rw [List.mem_singleton.1 hn, given?_only_of_mem (List.mem_singleton_self _),
          given?_only_of_mem hname]
        exact .inr rfl
      · exact .inl (given?_only_of_not_mem hn)
    rw [h] at hagain
    rw [turn_eq_under hv, hagain]
  · intro h
    rw [← turns_overlaid]
    refine turns_eq_self fun v hv => ?_
    by_cases hname : v.name ∈ names
    · rw [Variable.turn_congr (given?_only_of_mem hname), h v hv hname]
    · exact Variable.turn_of_none (given?_only_of_not_mem hname) c

/-- **What an overlay sets.** An overlay succeeds if and only if every truth value and number that
the environment gives is spelled right. Then each setting whose variable is given has its value, all
else is as it was, and the same overlay again changes nothing. What an overlay makes of a section
comes from variables of this section, whether it succeeds or fails. -/
theorem overlay_settings (c : Config) (lookup : String → Option String) :
    ((c.overlay lookup).2 = none ↔ WellSpelled lookup) ∧
      (WellSpelled lookup → (c.overlay lookup).1 = c.under lookup ∧
        (c.under lookup).overlay lookup = (c.under lookup, none)) ∧
      ∀ σ : Section, ∃ names ⊆ σ.names, (WellSpelled lookup → names = σ.names) ∧
        σ.Same (c.overlay lookup).1 (c.under (only names lookup)) := by
  obtain ⟨hwell, hoverlay⟩ | ⟨before, name, value, hends, hoverlay⟩ := c.overlay_eq_or lookup
  · rw [hoverlay]
    refine ⟨iff_of_true rfl hwell, fun _ => ⟨rfl, ?_⟩, fun σ => ?_⟩
    · obtain ⟨-, hagain⟩ | ⟨_, _, _, hends, -⟩ := (c.under lookup).overlay_eq_or lookup
      · rw [hagain, under_under fun _ => .inr rfl]
      · exact absurd hwell hends.not_wellSpelled
    · refine ⟨σ.names, List.Subset.refl _, fun _ => rfl, Section.same_under (fun n hn => ?_) c⟩
      rw [given?_only_of_mem hn]
  · rw [hoverlay]
    refine ⟨iff_of_false (Option.some_ne_none _) hends.not_wellSpelled,
      fun hwell => absurd hwell hends.not_wellSpelled, fun σ => ?_⟩
    refine ⟨σ.names.filter (· ∈ before), List.filter_sublist.subset,
      fun hwell => absurd hwell hends.not_wellSpelled, Section.same_under (fun n hn => ?_) c⟩
    by_cases hbefore : n ∈ before
    · rw [given?_only_of_mem hbefore, given?_only_of_mem (List.mem_filter.2 ⟨hn, by simpa⟩)]
    · rw [given?_only_of_not_mem hbefore, given?_only_of_not_mem]
      exact fun hmem => hbefore (by simpa using (List.mem_filter.1 hmem).2)

end Config

namespace Padded

/-- An environment with a blank address, a model between blanks, and truth values and numbers
between blanks, behind a plus or after noughts. -/
def environment : String → Option String
  | "YTOAI_BASE_URL" => some " "
  | "YTOAI_CHAT_ENABLED" => some " true"
  | "YTOAI_CHAT_MODEL" => some " glm-4 "
  | "YTOAI_EMBEDDING_DIMENSIONS" => some "\t+512"
  | "YTOAI_IMAGE_ENABLED" => some "false\n"
  | "YTOAI_RETRY_MAX_ATTEMPTS" => some "007"
  | _ => none

/-- The standard configuration without chat. -/
def silent : Config := { chat.enabled := false }

/-- The configuration that is made of it. -/
def config : Config :=
  { silent with
    chat.enabled := true
    chat.options.model := some " glm-4 "
    embedding.options.dimensions := some 512
    image.enabled := false
    retry.maxAttempts := 7 }

/-- The overlay succeeds. -/
theorem overlay_environment : silent.overlay environment = (config, none) := rfl

end Padded

open Padded in
/-- Blanks stay in the model and nowhere else, and the overlay may be repeated. -/
theorem Config.overlay_settings_padded :
    WellSpelled environment ∧ silent.under environment = config ∧
      config.overlay environment = (config, none) := by
  obtain ⟨hsucceeds, hsets, -⟩ := overlay_settings silent environment
  have hwell : WellSpelled environment := hsucceeds.1 (congrArg Prod.snd overlay_environment)
  obtain ⟨hunder, hagain⟩ := hsets hwell
  rw [overlay_environment] at hunder
  rw [← hunder] at hagain
  exact ⟨hwell, hunder.symm, hagain⟩

namespace Config

/-! ## Failures -/

/-- The setting of the variable has the value. -/
def Holds (c : Config) (name value : String) : Prop :=
  ∀ v ∈ overlaid, v.name = name → v.set value c = some c

/-- **What a failed overlay leaves.** The error is about the first variable that is not spelled
right. The settings whose variables come before it have what the environment gives for them, and all
else is as it was; so nothing has changed if and only if these settings had their values before. -/
theorem overlay_failed {c : Config} {lookup : String → Option String} {e : Error}
    (h : (c.overlay lookup).2 = some e) :
    ∃ before name value, EndsAt lookup before name value ∧ e = invalidValue name value ∧
      (c.overlay lookup).1 = c.under (only before lookup) ∧
      ((c.overlay lookup).1 = c ↔
        ∀ earlier ∈ before, ∀ text ∈ given? lookup earlier, c.Holds earlier text) := by
  obtain ⟨-, hoverlay⟩ | ⟨before, name, value, hends, hoverlay⟩ := c.overlay_eq_or lookup
  · rw [hoverlay] at h
    cases h
  · rw [hoverlay] at h ⊢
    refine ⟨before, name, value, hends, (Option.some.inj h).symm, rfl, ?_⟩
    rw [under_only_eq_self_iff]
    constructor
    · rintro hturns _ hearlier text hgiven v hv rfl
      exact (turn_eq_self_iff hv (hends.spelled _ hearlier) c).1 (hturns v hv hearlier) text hgiven
    · intro hholds v hv hname
      refine (turn_eq_self_iff hv (hends.spelled _ hname) c).2 fun text hgiven => ?_
      exact hholds v.name hname text hgiven v hv rfl

end Config

namespace HalfSet

/-- An environment with an address and a truth value that is none. -/
def environment : String → Option String
  | "YTOAI_BASE_URL" => some "http://localhost"
  | "YTOAI_CHAT_ENABLED" => some "maybe"
  | _ => none

/-- The overlay fails at the truth value. -/
theorem overlay_environment : ({} : Config).overlay environment =
    ({ baseUrl := "http://localhost" },
      some (Config.invalidValue "YTOAI_CHAT_ENABLED" "maybe")) := rfl

end HalfSet

open HalfSet in
/-- The address is set when the truth value is refused. -/
theorem Config.overlay_failed_maybe :
    (({} : Config).overlay environment).2 =
        some (invalidValue "YTOAI_CHAT_ENABLED" "maybe") ∧
      ∃ before name value, EndsAt environment before name value ∧
        ({} : Config).under (only before environment) = { baseUrl := "http://localhost" } := by
  have herror := congrArg Prod.snd overlay_environment
  obtain ⟨before, name, value, hends, -, hunder, -⟩ := overlay_failed herror
  rw [overlay_environment] at hunder
  exact ⟨herror, before, name, value, hends, hunder.symm⟩

open HalfSet in
/-- An overlay that fails does not leave every configuration as it was. -/
theorem Config.not_restored_by_failed_overlay :
    ¬∀ (c : Config) (lookup : String → Option String),
      (c.overlay lookup).2 ≠ none → (c.overlay lookup).1 = c := by
  intro h
  have hsame := h {} environment (by rw [overlay_environment]; exact Option.some_ne_none _)
  rw [overlay_environment] at hsame
  exact absurd (congrArg Config.baseUrl hsame) (by decide)

end ModelClient
