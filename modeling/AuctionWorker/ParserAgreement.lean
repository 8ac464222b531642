import AuctionWorker.CppParser
import AuctionWorker.GoParser
import AuctionWorker.PyParser

/-!
# The three request parsers on well-typed objects

Go and Python take from every well-typed object the request it asks for, one in
the bytes of UTF-8, the other in characters. C++ takes it with every string cut
at its first NUL, so that the three agree exactly on the objects whose strings
have no U+0000 (`parseRequest_agree_iff`).
-/

namespace AuctionWorker

open Text

/-- What the libraries make of one body: the same document, in bytes for C++ and
Go and in characters for Python. -/
structure Decodes (parse scan : List UInt8 → Option (Json UInt8))
    (loads : List UInt8 → Option (Json Char)) (body : List UInt8) (document : Json Char) :
    Prop where
  parse : parse body = some (document.mapText utf8)
  scan : scan body = some (document.mapText utf8)
  loads : loads body = some document

/-- The parsers return `request`, each in its own units. -/
def AllReturn (parse scan : List UInt8 → Option (Json UInt8))
    (loads : List UInt8 → Option (Json Char)) (body : List UInt8) (request : Request Char) :
    Prop :=
  Cpp.parseRequest parse body = .ok (request.mapText utf8)
    ∧ Go.parseRequest scan body = request.mapText utf8
    ∧ ∃ raw, Py.parseRequest loads body = .ok raw ∧ raw.Equals request

/-- **Agreement.** On a well-typed object the three parsers return the request it
asks for, with the strings it has, exactly when none of them contains U+0000. -/
theorem parseRequest_agree_iff {parse scan : List UInt8 → Option (Json UInt8)}
    {loads : List UInt8 → Option (Json Char)} {body : List UInt8}
    {members : List (List Char × Json Char)} (htyped : WellTyped members)
    (h : Decodes parse scan loads body (.obj members)) :
    AllReturn parse scan loads body (requestOf (.obj members))
      ↔ (requestOf (.obj members)).NulFree := by
  have hcpp : Cpp.parseRequest parse body = .ok (requestOf (.obj members) |>.mapText utf8)
      ↔ (requestOf (.obj members)).NulFree := by
    have hutf8 : requestOf (.obj (Json.mapMembers utf8 members))
        = (requestOf (.obj members)).mapText utf8 := requestOf_utf8 (.obj members)
    rw [Cpp.parseRequest_obj h.parse, hutf8, Except.ok.injEq,
      Request.mapText_cString_eq_self_iff, Request.nulFree_utf8_iff]
  have hgo : Go.parseRequest scan body = (requestOf (.obj members)).mapText utf8 := by
    rw [Go.parseRequest_wellTyped htyped.utf8 h.scan]
    exact requestOf_utf8 (.obj members)
  have hpy := Py.parseRequest_wellTyped htyped h.loads
  exact (and_iff_left ⟨hgo, hpy⟩).trans hcpp

/-! ## Three bodies -/

theorem decodes_parseOnly (body : List UInt8) (document : Json Char) :
    Decodes (parseOnly body (document.mapText utf8)) (parseOnly body (document.mapText utf8))
      (parseOnly body document) body document where
  parse := parseOnly_self body (document.mapText utf8)
  scan := parseOnly_self body (document.mapText utf8)
  loads := parseOnly_self body document

/-- The example of `doc/request.md`. -/
def exampleRequest : Request Char :=
  ⟨"xxxxxxxxxxx".toList, [1, 3, 5, 8, 14], 31415, 200, 300, ["example".toList, "test".toList]⟩

def exampleBody : List UInt8 :=
  ascii "\x7b\"auction_id\":\"xxxxxxxxxxx\",\"category_ids\":[1,3,5,8,14],"
    ++ ascii "\"zone_feature\":31415,\"zone_width\":200,\"zone_height\":300,"
    ++ ascii "\"block_domains\":[\"example\",\"test\"]\x7d"

theorem parseRequest_agree_exampleBody :
    let document : Json Char := .obj exampleRequest.members
    let bytes : Json UInt8 := document.mapText utf8
    AllReturn (parseOnly exampleBody bytes) (parseOnly exampleBody bytes)
      (parseOnly exampleBody document) exampleBody exampleRequest := by
  intro document bytes
  have hfits : exampleRequest.Fits := ⟨by decide, by decide, by decide, by decide⟩
  have hagree := parseRequest_agree_iff hfits.wellTyped (decodes_parseOnly exampleBody document)
  rw [hfits.requestOf] at hagree
  exact hagree.mpr (by decide)

/-- A body with an `auction_id` alone. -/
def idMembers (id : List Char) : List (List Char × Json Char) :=
  [(Field.auctionId.name, .str id)]

theorem wellTyped_idMembers (id : List Char) : WellTyped (idMembers id) :=
  WellTyped.singleton ⟨id, rfl⟩

def idBody : List UInt8 :=
  ascii "\x7b\"auction_id\":\"ab\"\x7d"

/-- The escaped U+0000 between two letters. -/
def nulBody : List UInt8 :=
  ascii "\x7b\"auction_id\":\"a\\u0000b\"\x7d"

/-- C++ returns `a` where Go returns all three characters. -/
theorem parseRequest_nulBody :
    let document : Json Char := .obj (idMembers ['a', nul, 'b'])
    let bytes : Json UInt8 := document.mapText utf8
    WellTyped (idMembers ['a', nul, 'b'])
      ∧ Cpp.parseRequest (parseOnly nulBody bytes) nulBody = .ok ⟨utf8 ['a'], [], 0, 0, 0, []⟩
      ∧ Go.parseRequest (parseOnly nulBody bytes) nulBody
        = ⟨utf8 ['a', nul, 'b'], [], 0, 0, 0, []⟩
      ∧ ¬AllReturn (parseOnly nulBody bytes) (parseOnly nulBody bytes)
        (parseOnly nulBody document) nulBody (requestOf document) := by
  refine ⟨wellTyped_idMembers ['a', nul, 'b'], by decide, by decide, ?_⟩
  rintro ⟨hcpp, -⟩
  revert hcpp
  decide

end AuctionWorker
