import ModelClient.Proofs.Authorization
import ModelClient.Proofs.CompactTexts
import ModelClient.Proofs.Dictionaries
import ModelClient.Proofs.EmbeddingBatches

/-!
# Metadata that stays with the client

A document is embedded with the metadata that the model's mode reveals. What is hidden from that
mode goes nowhere: two documents with the same text that reveal the same metadata are embedded by
the same run, so no request, no effect and no result tells them apart. The reason is that the mode
reaches the run only through the formatted text, and the text only through the entries that it
reveals. These are listed in ascending order of their names, so their membership determines them
(`Document.visible_eq`).

What a mode reveals (`Document.Reveals`) is said entry by entry, with a constructor for each mode
that reveals anything.

## Main statements

* `EmbeddingModel.embedDocument_revealed`: documents that reveal the same are embedded alike, and
  the only text that is sent is made of what they reveal.
-/

namespace ModelClient

namespace Document

/-- The document has metadata that a mode reveals. A set of hidden names counts for its own mode. -/
inductive Reveals (d : Document) : MetadataMode → String → Json → Prop
  | all {name : String} {value : Json} (hentry : d.metadata.get? name = some value) :
      Reveals d .all name value
  | embed {name : String} {value : Json} (hentry : d.metadata.get? name = some value)
      (hshown : name ∉ d.hiddenFromEmbedding.names) : Reveals d .embed name value
  | inference {name : String} {value : Json} (hentry : d.metadata.get? name = some value)
      (hshown : name ∉ d.hiddenFromInference.names) : Reveals d .inference name value

/-- The line for some metadata: the name, a colon and the value, which is shown as it is if it is a
string and in its compact text otherwise (`Json.shown`). -/
def line (entry : String × Json) : String := entry.1 ++ ": " ++ entry.2.shown

/-- Some metadata, a line each, then an empty line and the text; or the text alone if there is no
metadata. -/
def written (entries : List (String × Json)) (content : String) : String :=
  if entries = [] then content
  else String.join (entries.map fun entry => line entry ++ "\n") ++ "\n" ++ content

variable {d e : Document} {mode : MetadataMode}

/-- The visible metadata are listed in ascending order of their names. -/
theorem ascending_visible (d : Document) (mode : MetadataMode) : Ascending (d.visible mode) :=
  d.metadata.ascending.filter _

/-- The visible metadata is what the mode reveals. -/
theorem mem_visible_iff {name : String} {value : Json} :
    (name, value) ∈ d.visible mode ↔ d.Reveals mode name value := by
  rw [visible, List.mem_filter, ← Dict.get?_eq_some_iff]
  constructor
  · rintro ⟨hentry, hshown⟩
    cases mode with
    | all => exact .all hentry
    | embed => exact .embed hentry (by simpa [shows, NameSet.contains] using hshown)
    | inference => exact .inference hentry (by simpa [shows, NameSet.contains] using hshown)
    | none => cases hshown
  · intro hreveals
    cases hreveals with
    | all hentry => exact ⟨hentry, rfl⟩
    | embed hentry hshown => exact ⟨hentry, by simpa [shows, NameSet.contains] using hshown⟩
    | inference hentry hshown => exact ⟨hentry, by simpa [shows, NameSet.contains] using hshown⟩

/-- Documents that reveal the same have the same visible metadata. -/
theorem visible_eq (h : ∀ name value, e.Reveals mode name value ↔ d.Reveals mode name value) :
    e.visible mode = d.visible mode := by
  refine (e.ascending_visible mode).eq_of_mem_iff (d.ascending_visible mode) fun name value => ?_
  rw [mem_visible_iff, mem_visible_iff, h]

/-- Lines put between line breaks, and lines that each end with one. -/
theorem intercalate_newline {lines : List String} (h : lines ≠ []) :
    String.intercalate "\n" lines ++ "\n" = String.join (lines.map (· ++ "\n")) := by
  induction lines with
  | nil => exact absurd rfl h
  | cons line rest ih =>
    rw [List.map_cons, String.join_cons]
    by_cases hrest : rest = []
    · subst hrest
      rw [String.intercalate_singleton]
      exact String.append_empty.symm
    · rw [String.intercalate_cons_of_ne_nil hrest, String.append_assoc, ih hrest]

/-- The formatted text is the visible metadata and the text. -/
theorem format_eq_written (d : Document) (mode : MetadataMode) :
    d.format mode = written (d.visible mode) d.content := by
  unfold format written
  cases d.visible mode with
  | nil => rfl
  | cons entry rest =>
    let lines := (entry :: rest).map line
    have hline : (fun entry : String × Json => entry.1 ++ ": " ++ entry.2.plain) = line := by
      funext entry
      rw [line, entry.2.plain_eq_shown]
    have hblank : "\n\n" = "\n" ++ "\n" := rfl
    have hlines : String.intercalate "\n" lines ++ "\n" = String.join (lines.map (· ++ "\n")) :=
      intercalate_newline (List.cons_ne_nil _ _)
    rw [List.map_map] at hlines
    rw [if_neg (List.cons_ne_nil _ _)]
    calc String.intercalate "\n" ((entry :: rest).map fun entry =>
          entry.1 ++ ": " ++ entry.2.plain) ++ "\n\n" ++ d.content
      _ = String.intercalate "\n" lines ++ "\n\n" ++ d.content := by rw [hline]
      _ = String.intercalate "\n" lines ++ "\n" ++ "\n" ++ d.content := by
        rw [hblank, ← String.append_assoc]
      _ = _ := congrArg (· ++ "\n" ++ d.content) hlines

end Document

namespace EmbeddingModel

variable (m : EmbeddingModel)

/-- The request for the embedding of a text: the text is the input, and the options are the model's
own. -/
def textRequest (text : String) : Request :=
  { url := Client.endpoint m.client.baseUrl Client.embeddingPath
    contentType := Client.contentType
    authorization := Client.authorization? m.client.apiKey
    body := .record [("dimensions", m.defaults.dimensions.map fun n => .nat n.toNat),
      ("input", some (.str text)), ("model", m.defaults.model.map .str)] }

/-- It is the request that the client makes of the text. -/
theorem embeddingRequest_toRequest (text : String) :
    m.client.embeddingRequest (m.defaults.toRequest text) = m.textRequest text := rfl

/-- Embedding a text sends no other request. -/
theorem embed_sendsOnly_textRequest (text : String) :
    (m.embed text).SendsOnly fun request =>
      request = m.textRequest text ∧ text ≠ "" ∧ m.retry.maxAttempts ≠ 0 := by
  have hembed (hattempts : m.retry.maxAttempts ≠ 0) :
      (m.client.embed (m.defaults.toRequest text)).SendsOnly fun request =>
        request = m.textRequest text ∧ text ≠ "" ∧ m.retry.maxAttempts ≠ 0 := by
    unfold Client.embed
    split
    · exact Run.Bounded.fail _
    · next hinput => exact .post m.client ⟨rfl, hinput, hattempts⟩ _
  refine .bind (.observe _ _ _ (.bind (.bind (.execute m.retry hembed) fun answer => ?_)
    fun _ => Run.Bounded.pure trivial)) fun _ => Run.Bounded.pure trivial
  cases account {} answer with
  | none => exact Run.Bounded.halt _
  | some accounted => exact .bind (Run.Bounded.pure trivial) fun rest => Run.Bounded.pure trivial

/-- A text is asked for, unless it is empty or there is no attempt. -/
theorem mem_sentRequests_embed_iff {text : String} {s : Session} {script : List Answer}
    {request : Request} :
    request ∈ sentRequests (m.embed text (s.scripted script)).effects ↔
      request = m.textRequest text ∧ text ≠ "" ∧ m.retry.maxAttempts ≠ 0 := by
  refine ⟨(m.embed_sendsOnly_textRequest text).of_mem, ?_⟩
  rintro ⟨rfl, htext, hattempts⟩
  have hsent : .sent (m.textRequest text) ∈
      (m.client.embed (m.defaults.toRequest text) (s.scripted script)).effects := by
    have hasks := (m.embed_asks (m.defaults.toRequest text) htext s script).requests
    rw [← mem_sentRequests, hasks, embeddingRequest_toRequest]
    exact List.mem_singleton_self _
  have hall : .sent (m.textRequest text) ∈
      (m.embedAll m.defaults {} [text] (s.scripted script)).effects :=
    Run.mem_bind_of_mem (RetryPolicy.mem_execute hattempts hsent) _
  rw [mem_sentRequests]
  refine Run.mem_bind_of_mem ?_ _
  rw [call, if_neg (by simp), ← mem_sentRequests, sentRequests_observe, mem_sentRequests]
  exact Run.mem_bind_of_mem hall _

/-- **Metadata that a model does not reveal never leaves the client.** Documents with the same text
that reveal the same metadata in the model's mode are embedded by the same run, whatever else
differs. What is sent is the metadata that they reveal, a line each in ascending order of the names,
an empty line and the text; or the text alone if they reveal nothing. -/
theorem embedDocument_revealed {d e : Document} (hcontent : e.content = d.content)
    (hrevealed : ∀ name value,
      e.Reveals m.metadataMode name value ↔ d.Reveals m.metadataMode name value) :
    (∀ s, m.embedDocument e s = m.embedDocument d s) ∧
      ∃ entries, Ascending entries ∧
        (∀ name value, (name, value) ∈ entries ↔ d.Reveals m.metadataMode name value) ∧
        ∀ (s : Session) script request,
          request ∈ sentRequests (m.embedDocument d (s.scripted script)).effects ↔
            request = m.textRequest (Document.written entries d.content) ∧
              Document.written entries d.content ≠ "" ∧ m.retry.maxAttempts ≠ 0 := by
  refine ⟨fun s => ?_, d.visible m.metadataMode, d.ascending_visible _,
    fun _ _ => Document.mem_visible_iff, fun s script request => ?_⟩
  · rw [embedDocument, embedDocument, Document.format_eq_written, Document.format_eq_written,
      Document.visible_eq hrevealed, hcontent]
  · rw [embedDocument, Document.format_eq_written]
    exact m.mem_sentRequests_embed_iff

end EmbeddingModel

namespace HiddenMetadata

/-- What the documents say of themselves: a string and a number. -/
def common : List (String × Json) :=
  [("language", .str "en"), ("score", .float (.ofFraction false 1 2))]

/-- A document with a language, a score and a secret that is hidden from embedding. -/
def document : Document where
  id := "first"
  content := "Hello"
  metadata := .ofList (("secret", .str "key") :: common)
  hiddenFromEmbedding := .ofList ["secret"]

/-- A document with another id and another secret. Its language is hidden from inference. -/
def other : Document where
  id := "second"
  content := "Hello"
  metadata := .ofList (("owner", .null) :: common)
  hiddenFromEmbedding := .ofList ["owner"]
  hiddenFromInference := .ofList ["language"]

/-- Both reveal the language and the score and nothing else. -/
theorem reveals_iff (name : String) (value : Json) :
    other.Reveals .embed name value ↔ document.Reveals .embed name value := by
  have hvisible : other.visible .embed = document.visible .embed := rfl
  rw [← Document.mem_visible_iff, hvisible, Document.mem_visible_iff]

end HiddenMetadata

open HiddenMetadata in
/-- The secrets of the two documents make no difference, and neither of them is in the text. -/
theorem EmbeddingModel.embedDocument_revealed_language :
    other.content = document.content ∧
      (∀ name value, other.Reveals unwatched.metadataMode name value ↔
        document.Reveals unwatched.metadataMode name value) ∧
      (∀ s, unwatched.embedDocument other s = unwatched.embedDocument document s) ∧
      ∀ (s : Session) script request,
        request ∈ sentRequests (unwatched.embedDocument document (s.scripted script)).effects ↔
          request = unwatched.textRequest "language: en\nscore: 0.5\n\nHello" := by
  obtain ⟨hruns, entries, hascending, hentries, hsent⟩ :=
    unwatched.embedDocument_revealed (d := document) (e := other) rfl reveals_iff
  have hvisible : document.visible .embed = common := by decide
  have hlist : entries = common := by
    rw [← hvisible]
    refine hascending.eq_of_mem_iff (document.ascending_visible _) fun name value => ?_
    rw [hentries, Document.mem_visible_iff]
    rfl
  have htext : Document.written entries document.content = "language: en\nscore: 0.5\n\nHello" := by
    rw [hlist]
    decide
  refine ⟨rfl, reveals_iff, hruns, fun s script request => ?_⟩
  rw [hsent, htext]
  exact and_iff_left ⟨by decide, by decide⟩

end ModelClient
