import AuctionWorker.CreateData
import AuctionWorker.ParserAgreement
import AuctionWorker.ResponseBody

/-!
# The requests of the evaluation

`test/calculate_performance.py` writes every request with `json.dumps`, whose
separators are followed by a blank. The text says what was drawn
(`reads_requestText`): an object with the six members, each of its type
(`wellTyped_requestMembers`), that asks for the request (`requestOf_requestMembers`).

So if the libraries of the implementations decode this text as the JSON it is, all
three parsers return the request that was drawn (`allReturn_requestText`).
-/

namespace AuctionWorker

namespace CreateData

open JsonText Text

/-! ## `json.dumps` -/

/-- `json.dumps` of a dictionary, whose values are given as texts. -/
def dumpsObject (members : List (String × List Char)) : List Char :=
  '\x7b' :: ([',', ' '].intercalate (members.map fun member =>
    memberText (written Py.escape) [' '] (ascii member.1, member.2)) ++ ['\x7d'])

/-- `json.dumps` of a list, whose elements are given as texts. -/
def dumpsArray (elements : List (List Char)) : List Char :=
  '[' :: ([',', ' '].intercalate elements ++ [']'])

def dumpsString (s : List Char) : List Char :=
  quoted (written Py.escape) s

theorem isBlank_of_mem_space {c : Char} (h : c ∈ [' ']) : isBlank c := by
  obtain rfl := List.mem_singleton.mp h
  rfl

/-- The members of a dictionary and the document they make, value by value. -/
theorem reads_dumpsObject {texts : List (String × List Char)}
    {members : List (List Char × Json Char)}
    (h : List.Forall₂ (fun text member => ascii text.1 = member.1 ∧ Reads text.2 member.2)
      texts members) : Reads (dumpsObject texts) (.obj members) := by
  have hmembers : List.Forall₂ ReadsMember
      (texts.map fun text => ((ascii text.1 : List Char), text.2)) members :=
    List.forall₂_map_left_iff.mpr h
  have hreads := reads_object (fun _ hc => isBlank_of_mem_space hc) Py.escapes hmembers
  rwa [List.map_map] at hreads

theorem reads_dumpsArray {α : Type} {text : α → List Char} {document : α → Json Char}
    (h : ∀ a, Reads (text a) (document a)) (elements : List α) :
    Reads (dumpsArray (elements.map text)) (.arr (elements.map document)) := by
  refine reads_array (fun _ hc => isBlank_of_mem_space hc) ?_
  rw [List.forall₂_map_left_iff, List.forall₂_map_right_iff]
  exact List.forall₂_same.mpr fun a _ => h a

/-! ## A request -/

/-- `json.dumps(request_data)` -/
def requestText (draw : RequestDraw) : List Char :=
  dumpsObject
    [("auction_id", dumpsString draw.auctionId.text),
      ("category_ids", dumpsArray (draw.categoryIds.map fun id : ℕ => intText id)),
      ("zone_feature", intText draw.zoneFeature),
      ("zone_width", intText draw.zoneSize.1),
      ("zone_height", intText draw.zoneSize.2),
      ("block_domains", dumpsArray (draw.blockDomains.map dumpsString))]

/-- The members the text has. -/
def requestMembers (draw : RequestDraw) : List (List Char × Json Char) :=
  [(Field.auctionId.name, .str draw.auctionId.text),
    (Field.categoryIds.name, .nats draw.categoryIds),
    (Field.zoneFeature.name, .int draw.zoneFeature),
    (Field.zoneWidth.name, .int draw.zoneSize.1),
    (Field.zoneHeight.name, .int draw.zoneSize.2),
    (Field.blockDomains.name, .strs draw.blockDomains)]

/-- **The text of a request** is read as its members. -/
theorem reads_requestText (draw : RequestDraw) :
    Reads (requestText draw) (.obj (requestMembers draw)) :=
  reads_dumpsObject <|
    .cons ⟨rfl, reads_quoted Py.escapes _⟩ <|
    .cons ⟨rfl, reads_dumpsArray (fun id : ℕ => reads_int id) _⟩ <|
    .cons ⟨rfl, reads_int draw.zoneFeature⟩ <|
    .cons ⟨rfl, reads_int draw.zoneSize.1⟩ <|
    .cons ⟨rfl, reads_int draw.zoneSize.2⟩ <|
    .cons ⟨rfl, reads_dumpsArray (reads_quoted Py.escapes) _⟩ .nil

/-! ### The numbers fit their types -/

theorem categoryIds_lt (draw : RequestDraw) : ∀ id ∈ draw.categoryIds, id < 2 ^ 32 :=
  fun id hid => (draw.categoryIds_range id hid).2.trans (by norm_num)

theorem zoneFeature_int32 (draw : RequestDraw) :
    -2 ^ 31 ≤ draw.zoneFeature ∧ draw.zoneFeature < 2 ^ 31 := by
  have hfeature := draw.zoneFeature_range
  omega

theorem zoneSize_lt (draw : RequestDraw) :
    draw.zoneSize.1 < 2 ^ 32 ∧ draw.zoneSize.2 < 2 ^ 32 := by
  have hall : ∀ size ∈ CANDIDATE_ZONE_SIZES, size.1 < 2 ^ 32 ∧ size.2 < 2 ^ 32 := by decide
  exact hall _ draw.zoneSize_mem

theorem fits_requestData (draw : RequestDraw) : draw.requestData.Fits where
  categoryIds := categoryIds_lt draw
  feature := zoneFeature_int32 draw
  zoneWidth := (zoneSize_lt draw).1
  zoneHeight := (zoneSize_lt draw).2

theorem wellTyped_requestMembers (draw : RequestDraw) : WellTyped (requestMembers draw) :=
  (fits_requestData draw).wellTyped

/-- The members ask for what was drawn. -/
theorem requestOf_requestMembers (draw : RequestDraw) :
    requestOf (.obj (requestMembers draw)) = draw.requestData :=
  (fits_requestData draw).requestOf

theorem nulFree_requestData (draw : RequestDraw) : draw.requestData.NulFree := by
  have hnul : ∀ s : List Char, (∀ c ∈ s, c.isAlphanum) → nul ∉ s := fun s hs hmem =>
    absurd (hs nul hmem) (by decide)
  refine ⟨hnul _ fun c hc => ?_, fun domain hdomain => hnul _ ?_⟩
  · exact isAlphanum_of_mem_letters (draw.auctionId.text_mem c hc)
  · exact isAlphanum_of_mem_prohibit (draw.blockDomains_mem domain hdomain)

/-- **The requests as parsed.** Whatever libraries decode the text as the JSON it is,
every parser returns the request that was drawn. -/
theorem allReturn_requestText {parse scan : List UInt8 → Option (Json UInt8)}
    {loads : List UInt8 → Option (Json Char)} (draw : RequestDraw)
    (h : ∀ document, read (requestText draw) = some document →
      Decodes parse scan loads (utf8 (requestText draw)) document) :
    AllReturn parse scan loads (utf8 (requestText draw)) draw.requestData := by
  have hdecodes := h _ (reads_requestText draw).read
  have htyped := wellTyped_requestMembers draw
  have hrequest : requestOf (.obj (Json.mapMembers utf8 (requestMembers draw)))
      = draw.requestData.mapText utf8 := by
    rw [← requestOf_requestMembers]
    exact requestOf_utf8 (.obj (requestMembers draw))
  refine ⟨?_, ?_, ?_⟩
  · have hcut : (draw.requestData.mapText utf8).mapText cString
        = draw.requestData.mapText utf8 :=
      Request.mapText_cString_eq_self_iff.mpr
        (Request.nulFree_utf8_iff.mpr (nulFree_requestData draw))
    have hobj := Cpp.parseRequest_obj hdecodes.parse
    rwa [hrequest, hcut] at hobj
  · rw [Go.parseRequest_wellTyped htyped.utf8 hdecodes.scan, hrequest]
  · obtain ⟨raw, hraw, hequals⟩ := Py.parseRequest_wellTyped htyped hdecodes.loads
    exact ⟨raw, hraw, requestOf_requestMembers draw ▸ hequals⟩

end CreateData

end AuctionWorker
