import TransferPlan.Definition.Service
import TransferPlan.Proofs.Text.Percent

/-!
# Addresses of definitions

A definition is asked for under the URL of its service, without blanks around it and without
slashes at its end, and one more segment for its id.  The segment is percent-encoded, so that the
URL has a segment, a query or a fragment more for no id, and no two ids have the same URL
(`Service.ids_address_definitions`).
-/

namespace TransferPlan

/-! ## The URL of a service -/

/-- The base is the URL without the blanks around it and without the slashes that then end it. -/
structure StripsTo (url base : String) (front slashes back : List Char) : Prop where
  split : url.toList = front ++ (base.toList ++ slashes) ++ back
  blank : ∀ c ∈ front ++ back, Text.isBlank c = true
  nonempty : base.toList ++ slashes ≠ []
  trimmed : Text.IsTrimmed Text.isBlank (base.toList ++ slashes)
  slash : ∀ c ∈ slashes, c = '/'
  last : ∀ h : base.toList ≠ [], base.toList.getLast h ≠ '/'

namespace Service

variable {c : ServiceConfig} {s : Service} {id : String}

theorem toList_dropSlashes (t : String) :
    (dropSlashes t).toList = t.toList.rdropWhile (· == '/') :=
  String.toList_ofList

theorem exists_eq_dropSlashes_append (t : String) :
    ∃ slashes, t.toList = (dropSlashes t).toList ++ slashes ∧ ∀ c ∈ slashes, c = '/' := by
  refine ⟨t.toList.rtakeWhile (· == '/'), ?_, fun c hc => ?_⟩
  · rw [toList_dropSlashes, List.rdropWhile_append_rtakeWhile]
  · simpa using List.mem_rtakeWhile_imp hc

theorem getLast_dropSlashes (t : String) (h : (dropSlashes t).toList ≠ []) :
    (dropSlashes t).toList.getLast h ≠ '/' := by
  simp only [toList_dropSlashes] at h ⊢
  simpa using List.rdropWhile_last_not (· == '/') t.toList h

/-- A configuration makes a service exactly if its URL is not blank. -/
theorem ofConfig?_eq_some_iff : ofConfig? c = some s ↔
    Text.trim (c.baseUrl.getD "") ≠ "" ∧
      ⟨dropSlashes (Text.trim (c.baseUrl.getD "")), c.token.bind Text.trim?,
        max 1 c.timeout⟩ = s := by
  simp only [ofConfig?, Option.map_eq_some_iff, Text.trim?_eq_some_iff, and_assoc, exists_and_left,
    exists_eq_left']

theorem exists_stripsTo (h : ofConfig? c = some s) :
    ∃ front slashes back, StripsTo (c.baseUrl.getD "") s.baseUrl front slashes back := by
  obtain ⟨hne, rfl⟩ := ofConfig?_eq_some_iff.1 h
  obtain ⟨url, hurl⟩ : ∃ url, url = c.baseUrl.getD "" := ⟨_, rfl⟩
  rw [← hurl] at hne ⊢
  obtain ⟨front, back, hsplit, hblank⟩ := Text.exists_eq_append_trimList Text.isBlank url.toList
  obtain ⟨slashes, hslashes, hslash⟩ := exists_eq_dropSlashes_append (Text.trim url)
  have htrim : Text.trimList Text.isBlank url.toList =
      (dropSlashes (Text.trim url)).toList ++ slashes := by
    rw [← hslashes, Text.trim, String.toList_ofList]
  rw [htrim] at hsplit
  refine ⟨front, slashes, back, hsplit, hblank, ?_, ?_, hslash, getLast_dropSlashes _⟩
  · rwa [← hslashes, ne_eq, String.toList_eq_nil_iff]
  · rw [← htrim]
    exact Text.isTrimmed_trimList _ _

/-! ## The URL of a definition -/

variable {χ : Type}

/-- The URLs that are requested to find a definition. -/
def requestedUrls (s : Service) (validate : Validator χ) (transport : Transport χ) (id : String) :
    List String :=
  ((s.fetch validate transport id).run []).2.map (·.url)

theorem requestedUrls_eq (s : Service) (validate : Validator χ) (transport : Transport χ)
    (id : String) : s.requestedUrls validate transport id =
      [s.baseUrl ++ "/transformers/user-defined/" ++ Text.Percent.encode id] := by
  show [s.baseUrl ++ ("/transformers/user-defined/" ++ Text.Percent.encode id)] = _
  rw [String.append_assoc]

theorem requestedUrls_eq_iff {validate validate' : Validator χ} {transport transport' : Transport χ}
    {id id' : String} : s.requestedUrls validate transport id =
      s.requestedUrls validate' transport' id' ↔ id = id' := by
  rw [requestedUrls_eq, requestedUrls_eq, List.singleton_inj]
  refine ⟨fun h => ?_, fun h => by rw [h]⟩
  have hlist := congrArg String.toList h
  simp only [String.toList_append, List.append_cancel_left_eq, String.toList_inj] at hlist
  exact Text.Percent.encode_injective hlist

theorem count_encode_of_mark {mark : Char} (h : mark ∈ ['/', '?', '#']) (id : String) :
    (Text.Percent.encode id).toList.count mark = 0 := by
  have hcoded : Text.Percent.isCoded mark = false := by
    simp only [List.mem_cons, List.not_mem_nil, or_false] at h
    rcases h with rfl | rfl | rfl <;> decide
  exact List.count_eq_zero.2 ((Text.Percent.isCoded_encode id).not_mem hcoded)

/-- The URL that is requested for an id is that of the service, stripped, and one segment that is
decoded to the id.  Ids are told apart by their URLs, and none of them brings a slash, a query or a
fragment with it. -/
theorem ids_address_definitions (χ : Type) (h : ofConfig? c = some s) :
    (∃ front slashes back, StripsTo (c.baseUrl.getD "") s.baseUrl front slashes back) ∧
    (∀ (validate : Validator χ) transport id, ∃ segment, Text.Percent.IsSegment segment.toList ∧
      Text.Percent.decode segment = id ∧ s.requestedUrls validate transport id =
        [s.baseUrl ++ "/transformers/user-defined/" ++ segment]) ∧
    (∀ (validate validate' : Validator χ) transport transport' id id',
      s.requestedUrls validate transport id = s.requestedUrls validate' transport' id' ↔
        id = id') ∧
    ∀ (validate : Validator χ) transport id, ∀ url ∈ s.requestedUrls validate transport id,
      ∀ mark ∈ ['/', '?', '#'], url.toList.count mark =
        (s.baseUrl ++ "/transformers/user-defined/").toList.count mark := by
  refine ⟨exists_stripsTo h, fun validate transport id => ?_,
    fun _ _ _ _ _ _ => requestedUrls_eq_iff, ?_⟩
  · exact ⟨_, Text.Percent.isSegment_encode id, Text.Percent.decode_encode id,
      requestedUrls_eq s validate transport id⟩
  · intro validate transport id url hurl mark hmark
    rw [requestedUrls_eq, List.mem_singleton] at hurl
    rw [hurl, String.toList_append, List.count_append, count_encode_of_mark hmark, Nat.add_zero]

/-- A configuration whose URL has blanks around it and slashes at its end. -/
def spacedConfig : ServiceConfig where
  baseUrl := some " https://transformers.example.com/v1//\n"

theorem ids_address_definitions_spaced :
    let s : Service := ⟨"https://transformers.example.com/v1", none, 30⟩
    let transport : Transport Empty := fun _ => .refused "connection refused"
    ofConfig? spacedConfig = some s ∧
      s.requestedUrls .reading transport "a/b?c#é" =
        ["https://transformers.example.com/v1/transformers/user-defined/a%2Fb%3Fc%23%C3%A9"] ∧
      s.requestedUrls .reading transport "a/b?c#é" ≠
        s.requestedUrls .reading transport "a%2Fb?c#é" := by
  intro s transport
  have hs : ofConfig? spacedConfig = some s := by decide +kernel
  have hcode : Text.Percent.encode "a/b?c#é" = "a%2Fb%3Fc%23%C3%A9" := by decide +kernel
  obtain ⟨-, -, hiff, -⟩ := ids_address_definitions Empty hs
  refine ⟨hs, ?_, fun h => absurd ((hiff _ _ _ _ _ _).1 h) (by decide)⟩
  rw [requestedUrls_eq, hcode]
  rfl

end Service

end TransferPlan
