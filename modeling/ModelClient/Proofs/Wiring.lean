import Mathlib.Data.List.TakeWhile
import ModelClient.Proofs.Authorization

/-!
# The wiring of a configuration

The three sections of a configuration are wired alike: a section that is enabled connects a model to
the section's address with the section's key, its own ones unless they are blank, and the shared
ones otherwise. A section is named here by the operation of its model, so that a statement about
all sections is one statement.

`Models.build_eq` says once what building does: the first enabled section that cannot be connected,
if there is one, and else a model for every enabled section, each with its own section's client.
Everything else is read off it. That the parts of disabled sections do not matter is seen there too:
neither the failures nor the models look at them.

## Main statements

* `Models.build_wires`: when a configuration has models, which they are, where their requests go and
  with which key, and which failure there is otherwise.
-/

namespace ModelClient

/-! ## Addresses -/

/-- Slashes, and nothing else. -/
def slashes (n : Nat) : String := String.ofList (List.replicate n '/')

/-- The request goes to the path below the address, of which slashes at the end do not count. -/
def Request.GoesTo (address path : String) (request : Request) : Prop :=
  ∃ base n, address = base ++ slashes n ∧ base.toList.getLast? ≠ some '/' ∧
    request.url = base ++ path

/-- An address is what is left without the slashes at its end, and these. -/
theorem Client.exists_endpoint_eq (address path : String) :
    ∃ base n, address = base ++ slashes n ∧ base.toList.getLast? ≠ some '/' ∧
      endpoint address path = base ++ path := by
  let isSlash : Char → Bool := (· == '/')
  let kept := address.toList.reverse.dropWhile isSlash
  let cut := address.toList.reverse.takeWhile isSlash
  have hslash : ∀ c ∈ cut, c = '/' := by
    intro c hc
    have hbeq : isSlash c = true := List.mem_takeWhile_imp hc
    exact eq_of_beq hbeq
  have hcut : cut = List.replicate cut.length '/' := List.eq_replicate_iff.2 ⟨rfl, hslash⟩
  have haddress : address.toList = kept.reverse ++ List.replicate cut.length '/' := by
    calc address.toList = (cut ++ kept).reverse := by
          rw [List.takeWhile_append_dropWhile, List.reverse_reverse]
      _ = kept.reverse ++ cut.reverse := List.reverse_append
      _ = kept.reverse ++ List.replicate cut.length '/' := by
          rw [hcut, List.reverse_replicate, List.length_replicate]
  -- What is kept ends in no slash, since `dropWhile` stops at the first other character.
  refine ⟨String.ofList kept.reverse, cut.length, ?_, ?_, rfl⟩
  · rw [← String.toList_inj, String.toList_append, String.toList_ofList, slashes,
      String.toList_ofList, haddress]
  · rw [String.toList_ofList, List.getLast?_reverse]
    intro hhead
    have hnot := List.head?_dropWhile_not isSlash address.toList.reverse
    have hhead : (address.toList.reverse.dropWhile isSlash).head? = some '/' := hhead
    rw [hhead] at hnot
    exact absurd hnot (by decide)

/-- A request of a client goes below the client's address. -/
theorem Client.Posts.goesTo {client : Client} {path : String} {request : Request}
    (h : client.Posts path request) : request.GoesTo client.baseUrl path := by
  obtain ⟨base, n, haddress, hlast, hendpoint⟩ := exists_endpoint_eq client.baseUrl path
  exact ⟨base, n, haddress, hlast, h.url_eq.trans hendpoint⟩

/-! ## Sections -/

namespace Operation

/-- The operations in the order in which their models are made. -/
def all : List Operation := [chat, embedding, image]

/-- There are no other operations. -/
theorem mem_all (k : Operation) : k ∈ all := by
  cases k <;> decide

/-- Where the requests of an operation go. -/
def path : Operation → String
  | chat => Client.chatPath
  | embedding => Client.embeddingPath
  | image => Client.imagePath

end Operation

namespace Config

/-- A section is enabled. -/
def enables (c : Config) : Operation → Bool
  | .chat => c.chat.enabled
  | .embedding => c.embedding.enabled
  | .image => c.image.enabled

/-- The address that a section has of its own. -/
def ownAddress (c : Config) : Operation → Option String
  | .chat => c.chat.baseUrl
  | .embedding => c.embedding.baseUrl
  | .image => c.image.baseUrl

/-- The key that a section has of its own. -/
def ownKey (c : Config) : Operation → Option String
  | .chat => c.chat.apiKey
  | .embedding => c.embedding.apiKey
  | .image => c.image.apiKey

/-- A value that is present and not blank, and else the shared one. -/
def resolved (own : Option String) (shared : String) : String :=
  (own.filter fun value => !Text.isBlank value).getD shared

/-- A connection takes a section's own value unless it is missing or blank. -/
theorem ownOrShared_eq_resolved (own : Option String) (shared : String) :
    ownOrShared own shared = resolved own shared := by
  cases own with
  | none => rfl
  | some value =>
    rw [ownOrShared, resolved, Option.filter_some]
    cases Text.isBlank value <;> rfl

/-- The address of a section. -/
def address (c : Config) (k : Operation) : String := resolved (c.ownAddress k) c.baseUrl

/-- The key of a section. -/
def key (c : Config) (k : Operation) : String := resolved (c.ownKey k) c.apiKey

/-- The client of a section. -/
def client (c : Config) (k : Operation) : Client := { baseUrl := c.address k, apiKey := c.key k }

/-- A section has an address and a key. -/
def Connects (c : Config) (k : Operation) : Prop :=
  Text.isBlank (c.address k) = false ∧ Text.isBlank (c.key k) = false

/-- What is said about a section without an address or a key; the address comes first. -/
inductive Refuses (c : Config) (k : Operation) : Error → Prop where
  | address : Text.isBlank (c.address k) = true →
    Refuses c k (.configuration "YtoAI base URL must be set")
  | key : Text.isBlank (c.address k) = false → Text.isBlank (c.key k) = true →
    Refuses c k (.configuration "YtoAI API key must be set")

/-- What is said about an enabled section that cannot be connected. -/
def fault? (c : Config) (k : Operation) : Option Error :=
  if !c.enables k then none
  else if Text.isBlank (c.address k) then some (.configuration "YtoAI base URL must be set")
  else if Text.isBlank (c.key k) then some (.configuration "YtoAI API key must be set")
  else none

/-- An operation is at fault only if its section is enabled and cannot be connected. -/
theorem fault?_eq_none_iff {c : Config} {k : Operation} :
    c.fault? k = none ↔ (c.enables k = true → c.Connects k) := by
  rw [fault?, Connects]
  cases c.enables k <;> cases Text.isBlank (c.address k) <;> cases Text.isBlank (c.key k) <;> simp

/-- The fault of an operation is the error of connecting its section. -/
theorem fault?_eq_some_iff {c : Config} {k : Operation} {e : Error} :
    c.fault? k = some e ↔ c.enables k = true ∧ c.Refuses k e := by
  rw [fault?]
  refine ⟨fun h => ?_, fun ⟨henables, h⟩ => ?_⟩
  · split at h
    · cases h
    next henables =>
    refine ⟨by simpa using henables, ?_⟩
    split at h
    · next haddress =>
      cases h
      exact .address haddress
    next haddress =>
    split at h
    · next hkey =>
      cases h
      exact .key (by simpa using haddress) hkey
    · cases h
  · cases h with
    | address haddress => simp [henables, haddress]
    | key haddress hkey => simp [henables, haddress, hkey]

/-- Two configurations that differ in disabled sections only. -/
structure SameEnabled (c c' : Config) : Prop where
  baseUrl_eq : c'.baseUrl = c.baseUrl
  apiKey_eq : c'.apiKey = c.apiKey
  retry_eq : c'.retry = c.retry
  enables_eq : ∀ k, c'.enables k = c.enables k
  chat_eq : c.chat.enabled = true → c'.chat = c.chat
  embedding_eq : c.embedding.enabled = true → c'.embedding = c.embedding
  image_eq : c.image.enabled = true → c'.image = c.image

end Config

namespace Models

/-- There is a model for the operation. -/
def has (models : Models) : Operation → Bool
  | .chat => models.chat.isSome
  | .embedding => models.embedding.isSome
  | .image => models.image.isSome

/-- The model for the operation sends the request. -/
inductive Issues (models : Models) : Operation → Request → Prop where
  | chat {m : ChatModel} {request : Request} :
    models.chat = some m → m.Sends request → Issues models .chat request
  | embedding {m : EmbeddingModel} {request : Request} :
    models.embedding = some m → m.Sends request → Issues models .embedding request
  | image {m : ImageModel} {request : Request} :
    models.image = some m → m.Sends request → Issues models .image request

/-- The models of the enabled sections, each with its own section's client. -/
def wired (c : Config) (s : Setup) : Models where
  chat := if c.enables .chat then some (chatModel c s (c.client .chat)) else none
  embedding :=
    if c.enables .embedding then some (embeddingModel c s (c.client .embedding)) else none
  image := if c.enables .image then some (imageModel c s (c.client .image)) else none

/-- A section gives its fault, or its model if it is enabled. -/
theorem ofSection?_eq {α : Type} (c : Config) (k : Operation) (model : Client → α) :
    ofSection? c (c.enables k) (c.ownAddress k) (c.ownKey k) model =
      match c.fault? k with
      | some e => .error e
      | none => .ok (if c.enables k then some (model (c.client k)) else none) := by
  rw [ofSection?, Config.connection, Config.ownOrShared_eq_resolved,
    Config.ownOrShared_eq_resolved, ← Config.address, ← Config.key, Config.fault?]
  cases c.enables k <;> cases Text.isBlank (c.address k) <;> cases Text.isBlank (c.key k) <;> rfl

/-- Building gives the first fault, and without one the models. -/
theorem build_eq (c : Config) (s : Setup) :
    build c s = match Operation.all.findSome? c.fault? with
      | some e => .error e
      | none => .ok (wired c s) := by
  have hchat := ofSection?_eq c .chat (chatModel c s)
  have hembedding := ofSection?_eq c .embedding (embeddingModel c s)
  have himage := ofSection?_eq c .image (imageModel c s)
  simp only [Config.enables, Config.ownAddress, Config.ownKey] at hchat hembedding himage
  rw [build, hchat, hembedding, himage, Operation.all, List.findSome?_cons, List.findSome?_cons,
    List.findSome?_cons, wired]
  cases c.fault? .chat <;> cases c.fault? .embedding <;> cases c.fault? .image <;> rfl

/-- Building succeeds if every enabled section can be connected. -/
theorem build_eq_ok_iff {c : Config} {s : Setup} {models : Models} :
    build c s = .ok models ↔ (∀ k, c.enables k = true → c.Connects k) ∧ models = wired c s := by
  have hnone : Operation.all.findSome? c.fault? = none ↔
      ∀ k, c.enables k = true → c.Connects k := by
    rw [List.findSome?_eq_none_iff]
    exact ⟨fun h k => Config.fault?_eq_none_iff.1 (h k k.mem_all),
      fun h k _ => Config.fault?_eq_none_iff.2 (h k)⟩
  rw [build_eq, ← hnone]
  cases Operation.all.findSome? c.fault? with
  | some e => exact ⟨nofun, nofun⟩
  | none =>
    refine ⟨fun h => ⟨rfl, ?_⟩, fun ⟨_, h⟩ => ?_⟩
    · cases h
      rfl
    · rw [h]

/-- The failure is that of the first section that cannot be connected. -/
theorem build_eq_error_iff {c : Config} {s : Setup} {e : Error} :
    build c s = .error e ↔ ∃ before k after, Operation.all = before ++ k :: after ∧
      (∀ k' ∈ before, c.enables k' = true → c.Connects k') ∧
      c.enables k = true ∧ c.Refuses k e := by
  have hsome : build c s = .error e ↔ Operation.all.findSome? c.fault? = some e := by
    rw [build_eq]
    cases Operation.all.findSome? c.fault? with
    | none => exact ⟨nofun, nofun⟩
    | some e' => simp
  rw [hsome, List.findSome?_eq_some_iff]
  refine ⟨fun ⟨before, k, after, hall, hk, hbefore⟩ => ?_,
    fun ⟨before, k, after, hall, hbefore, hk⟩ => ?_⟩
  · exact ⟨before, k, after, hall, fun k' hk' => Config.fault?_eq_none_iff.1 (hbefore k' hk'),
      Config.fault?_eq_some_iff.1 hk⟩
  · exact ⟨before, k, after, hall, Config.fault?_eq_some_iff.2 hk,
      fun k' hk' => Config.fault?_eq_none_iff.2 (hbefore k' hk')⟩

/-- A model is there exactly if its section is enabled. -/
theorem has_wired (c : Config) (s : Setup) (k : Operation) : (wired c s).has k = c.enables k := by
  cases k <;> simp only [has, wired] <;> split <;> simp_all

/-- A request of a section's model is one of the section's client, and there are attempts. -/
theorem posts_of_issues {c : Config} {s : Setup} {k : Operation} {request : Request}
    (h : (wired c s).Issues k request) :
    c.enables k = true ∧ (c.client k).Posts k.path request ∧
      (s.retry.getD c.retry).maxAttempts ≠ 0 := by
  cases h with
  | chat hm hsends =>
    obtain ⟨henables, hm⟩ := Option.ite_none_right_eq_some.1 hm
    cases hm
    exact ⟨henables, ChatModel.posts_of_sends hsends,
      (ChatModel.attempted_of_sends hsends).attempts⟩
  | embedding hm hsends =>
    obtain ⟨henables, hm⟩ := Option.ite_none_right_eq_some.1 hm
    cases hm
    exact ⟨henables, EmbeddingModel.requests_of_sends hsends⟩
  | image hm hsends =>
    obtain ⟨henables, hm⟩ := Option.ite_none_right_eq_some.1 hm
    cases hm
    exact ⟨henables, ImageModel.requests_of_sends hsends⟩

/-- The model of every enabled section sends some request if it has an attempt. -/
theorem exists_issues {c : Config} {s : Setup}
    (hattempts : (s.retry.getD c.retry).maxAttempts ≠ 0) {k : Operation}
    (henables : c.enables k = true) : ∃ request, (wired c s).Issues k request := by
  cases k with
  | chat =>
    obtain ⟨request, hsends⟩ := chatModel_exists_sends c s (c.client .chat) hattempts
    exact ⟨request, .chat (if_pos henables) hsends⟩
  | embedding =>
    obtain ⟨request, hsends⟩ :=
      EmbeddingModel.exists_sends (m := embeddingModel c s (c.client .embedding)) hattempts
    exact ⟨request, .embedding (if_pos henables) hsends⟩
  | image =>
    obtain ⟨request, hsends⟩ :=
      ImageModel.exists_sends (m := imageModel c s (c.client .image)) hattempts
    exact ⟨request, .image (if_pos henables) hsends⟩

/-- The requests carry their sections' keys exactly if these may stand in a header. -/
theorem forall_carries_iff (c : Config) (s : Setup) :
    (∀ k request, (wired c s).Issues k request → request.Carries (c.key k)) ↔
      (s.retry.getD c.retry).maxAttempts = 0 ∨
        ∀ k, c.enables k = true → (c.key k).toList.all Client.isHeaderChar = true := by
  refine ⟨fun hcarry => ?_, fun hkeys k request hissues => ?_⟩
  · refine Classical.or_iff_not_imp_left.2 fun hattempts k henables => ?_
    obtain ⟨request, hissues⟩ := exists_issues hattempts henables
    exact (posts_of_issues hissues).2.1.authorizes.carries_iff.1 (hcarry k request hissues)
  · obtain ⟨henables, hposts, hattempts⟩ := posts_of_issues hissues
    rcases hkeys with hzero | hkeys
    · exact absurd hzero hattempts
    · exact hposts.authorizes.carries_iff.2 (hkeys k henables)

end Models

/-! ## Disabled sections -/

namespace Config.SameEnabled

variable {c c' : Config}

/-- An enabled section has the same address. -/
theorem address_eq (h : c.SameEnabled c') {k : Operation} (henables : c.enables k = true) :
    c'.address k = c.address k := by
  rw [address, address, h.baseUrl_eq]
  cases k with
  | chat => rw [ownAddress, ownAddress, h.chat_eq henables]
  | embedding => rw [ownAddress, ownAddress, h.embedding_eq henables]
  | image => rw [ownAddress, ownAddress, h.image_eq henables]

/-- An enabled section has the same key. -/
theorem key_eq (h : c.SameEnabled c') {k : Operation} (henables : c.enables k = true) :
    c'.key k = c.key k := by
  rw [key, key, h.apiKey_eq]
  cases k with
  | chat => rw [ownKey, ownKey, h.chat_eq henables]
  | embedding => rw [ownKey, ownKey, h.embedding_eq henables]
  | image => rw [ownKey, ownKey, h.image_eq henables]

/-- An enabled section has the same client. -/
theorem client_eq (h : c.SameEnabled c') {k : Operation} (henables : c.enables k = true) :
    c'.client k = c.client k := by
  rw [client, client, h.address_eq henables, h.key_eq henables]

/-- Every operation has the same fault. -/
theorem fault?_eq (h : c.SameEnabled c') (k : Operation) : c'.fault? k = c.fault? k := by
  rw [fault?, fault?, h.enables_eq k]
  cases henables : c.enables k with
  | false => rfl
  | true => rw [h.address_eq henables, h.key_eq henables]

/-- The models are the same. -/
theorem wired_eq (h : c.SameEnabled c') (s : Setup) : Models.wired c' s = Models.wired c s := by
  simp only [Models.wired, h.enables_eq]
  congr 1
  · refine ite_congr rfl (fun henables => ?_) fun _ => rfl
    rw [h.client_eq henables, Models.chatModel, Models.chatModel, h.chat_eq henables, h.retry_eq]
  · refine ite_congr rfl (fun henables => ?_) fun _ => rfl
    rw [h.client_eq henables, Models.embeddingModel, Models.embeddingModel,
      h.embedding_eq henables, h.retry_eq]
  · refine ite_congr rfl (fun henables => ?_) fun _ => rfl
    rw [h.client_eq henables, Models.imageModel, Models.imageModel, h.image_eq henables,
      h.retry_eq]

/-- Building does the same. -/
theorem build_eq (h : c.SameEnabled c') (s : Setup) : Models.build c' s = Models.build c s := by
  rw [Models.build_eq, Models.build_eq, funext h.fault?_eq, h.wired_eq]

end Config.SameEnabled

/-! ## The whole wiring -/

/-- **The wiring of sections.** A configuration has models exactly if each of its enabled sections
has an address and a key that are not blank; otherwise the first enabled section without one of them
is refused, for the address before the key. There is a model for each enabled section and no other.
Its requests go below the address of its own section, without slashes at the end, and have what
becomes of its own section's key in a header. So every request carries its section's key exactly if
the keys of the enabled sections may stand in a header, or there are no attempts. Nothing in a
disabled section changes any of this. -/
theorem Models.build_wires (c : Config) (s : Setup) :
    ((∃ models, build c s = .ok models) ↔ ∀ k, c.enables k = true → c.Connects k) ∧
    (∀ e, build c s = .error e ↔ ∃ before k after, Operation.all = before ++ k :: after ∧
      (∀ k' ∈ before, c.enables k' = true → c.Connects k') ∧
      c.enables k = true ∧ c.Refuses k e) ∧
    (∀ models, build c s = .ok models →
      (∀ k, models.has k = c.enables k) ∧
      (∀ k request, models.Issues k request → request.GoesTo (c.address k) k.path ∧
        request.authorization = Client.authorization? (c.key k)) ∧
      ((∀ k request, models.Issues k request → request.Carries (c.key k)) ↔
        (s.retry.getD c.retry).maxAttempts = 0 ∨
          ∀ k, c.enables k = true → (c.key k).toList.all Client.isHeaderChar = true)) ∧
    ∀ c', c.SameEnabled c' → build c' s = build c s := by
  refine ⟨⟨fun ⟨_, h⟩ => (build_eq_ok_iff.1 h).1, fun h => ⟨_, build_eq_ok_iff.2 ⟨h, rfl⟩⟩⟩,
    fun _ => build_eq_error_iff, fun models h => ?_, fun _ hsame => hsame.build_eq s⟩
  obtain ⟨-, rfl⟩ := build_eq_ok_iff.1 h
  refine ⟨has_wired c s, fun k request hissues => ?_, forall_carries_iff c s⟩
  obtain ⟨-, hposts, -⟩ := posts_of_issues hissues
  exact ⟨hposts.goesTo, hposts.authorizes⟩

/-! ## A key of a section that is lost -/

namespace Wiring

/-- A configuration in which the chat section has a key of two lines. -/
def lined : Config := { apiKey := "key", chat := { apiKey := some "a\nb" } }

end Wiring

open Wiring in
/-- The models are built, and the requests of the chat model have no key, while those of the
embedding model carry theirs. -/
theorem Models.chat_key_lost :
    ∃ models, build lined {} = .ok models ∧
      (∀ request, models.Issues .embedding request → request.Carries "key") ∧
      ∃ request, models.Issues .chat request ∧ request.authorization = none ∧
        ¬request.Carries (lined.key .chat) := by
  have hconnects : ∀ k, lined.enables k = true → lined.Connects k := by
    intro k _
    cases k <;> exact ⟨by decide, by decide⟩
  refine ⟨wired lined {}, build_eq_ok_iff.2 ⟨hconnects, rfl⟩, fun request hissues => ?_, ?_⟩
  · exact (posts_of_issues hissues).2.1.authorizes.carries_iff.2 (by decide)
  · obtain ⟨request, hissues⟩ := exists_issues (c := lined) (s := {}) (k := .chat) (by decide) rfl
    have hauthorizes := (posts_of_issues hissues).2.1.authorizes
    refine ⟨request, hissues, hauthorizes.trans (by decide), fun hcarries => ?_⟩
    exact absurd (hauthorizes.carries_iff.1 hcarries) (by decide)

end ModelClient
