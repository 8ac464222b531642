import AuctionWorker.CppConnections
import AuctionWorker.CppTies
import AuctionWorker.DatasetAccepted
import AuctionWorker.Encoding
import AuctionWorker.PyFailStop
import AuctionWorker.PySelection
import AuctionWorker.RequestText

/-!
# The handlers, from the body to the reply

`auction_handler` of `cpp/src/server/auction.cpp` and `python/server/auction.py`,
and `AuctionHandler` of `golang/server/auction.go`: parse the body, run the auction,
send the response or `204 No Contents`.

- A body costs the C++ process its life unless it is an object and no distance that
  its auction compares overflows (`Cpp.serves_iff`). An exception of the driver costs it
  too, and changes none of the replies before (`Cpp.process_closesAll`).
- The Go handler replies to every body, whatever is stored and whatever fails
  (`Go.replies`).
- On generated data the handlers of C++ and Go reply to every request of the
  evaluation with the documented result, and so does the Python handler if no ad on
  offer has the feature 0 (`evaluation_handled`).

Where Python goes on with members of other types than documented, its handler is not
modelled.
-/

namespace AuctionWorker

open Text JsonText

/-! ## Replies -/

structure Reply where
  status : ℕ
  body : List UInt8
deriving Repr, DecidableEq

/-- `204 No Contents` -/
def sendNobidResponse : Reply :=
  ⟨204, []⟩

/-- The reply to the result of an auction, whose response is written by `send`. -/
def Reply.answer {χ : Type} (send : Response χ → List UInt8) : Option (Response χ) → Reply
  | some response => ⟨200, send response⟩
  | none => sendNobidResponse

/-- What a reply says: nothing but the response, or no bid. -/
def Reply.Says (reply : Reply) : Option (Response Char) → Prop
  | some response => reply.status = 200 ∧ Denotes reply.body response
  | none => reply = sendNobidResponse

theorem Reply.Says.unique {reply : Reply} {result result' : Option (Response Char)}
    (h : reply.Says result) (h' : reply.Says result') : result = result' := by
  have hnobid : ∀ {response}, reply.Says (some response) → ¬reply.Says none := by
    rintro response ⟨hstatus, -⟩ rfl
    exact absurd hstatus (by decide)
  cases result with
  | some response =>
      cases result' with
      | some response' => exact congrArg some (h.2.unique h'.2)
      | none => exact absurd h' (hnobid h)
  | none =>
      cases result' with
      | some response' => exact absurd h (hnobid h')
      | none => rfl

theorem Reply.answer_says {send : Response Char → List UInt8} {result : Option (Response Char)}
    (hsend : ∀ response, result = some response → Denotes (send response) response) :
    (Reply.answer send result).Says result := by
  cases result with
  | none => exact rfl
  | some response => exact ⟨rfl, hsend response rfl⟩

/-! ## C++ -/

namespace Cpp

def auctionHandler (parse : List UInt8 → Option (Json UInt8)) (db : Database UInt8)
    (data : List UInt8) : Except Abort Reply := do
  let request ← parseRequest parse data
  pure (.answer sendWinnerResponse (← auction db request))

variable {parse : List UInt8 → Option (Json UInt8)} {db : Database UInt8}

/-- The handler replies to objects whose auction compares exact distances only. -/
theorem auctionHandler_ok_iff (htypes : DocumentedTypes db) (data : List UInt8) :
    (∃ reply, auctionHandler parse db data = .ok reply)
      ↔ ∃ members, parse data = some (.obj members)
        ∧ Exact db ((requestOf (.obj members)).mapText cString) := by
  by_cases hobj : ∃ members, parse data = some (.obj members)
  · obtain ⟨members, hparse⟩ := hobj
    have hrequest := parseRequest_obj hparse
    rcases auctionWinner_cases ((requestOf (.obj members)).mapText cString) htypes with
      ⟨hexact, winner, hwinner, -⟩ | ⟨hexact, herr⟩
    · refine iff_of_true ?_ ⟨members, hparse, hexact⟩
      rw [auctionHandler, hrequest]
      show ∃ reply, (auction db _ >>= _) = _
      rw [auction, hwinner]
      cases winner with
      | none => exact ⟨_, rfl⟩
      | some ads => exact ⟨_, rfl⟩
    · refine iff_of_false ?_ ?_
      · rintro ⟨reply, hreply⟩
        rw [auctionHandler, hrequest] at hreply
        replace hreply : (auction db _ >>= _) = Except.ok reply := hreply
        rw [auction, herr] at hreply
        cases hreply
      · rintro ⟨members', hparse', hexact'⟩
        obtain rfl := Json.obj.inj (Option.some.inj (hparse.symm.trans hparse'))
        exact hexact hexact'
  · refine iff_of_false ?_ ?_
    · rintro ⟨reply, hreply⟩
      rw [auctionHandler, parseRequest_not_obj fun members h => hobj ⟨members, h⟩] at hreply
      cases hreply
    · rintro ⟨members, hparse, -⟩
      exact hobj ⟨members, hparse⟩

/-- **The C++ process** replies to all of a sequence of bodies exactly if each is an
object whose auction compares exact distances only; it aborts at the first that is not. -/
theorem serves_iff (htypes : DocumentedTypes db) (bodies : List (List UInt8)) :
    (∃ replies, bodies.mapM (auctionHandler parse db) = .ok replies)
      ↔ ∀ data ∈ bodies, ∃ members, parse data = some (.obj members)
        ∧ Exact db ((requestOf (.obj members)).mapText cString) := by
  simp only [← auctionHandler_ok_iff htypes]
  induction bodies with
  | nil => exact iff_of_true ⟨[], rfl⟩ fun _ h => nomatch h
  | cons data bodies ih =>
      rw [List.mapM_cons, List.forall_mem_cons, ← ih]
      cases hdata : auctionHandler parse db data with
      | error err => exact iff_of_false (fun ⟨_, h⟩ => nomatch h) fun ⟨⟨_, h⟩, _⟩ => nomatch h
      | ok reply =>
          cases bodies.mapM (auctionHandler parse db) with
          | error err => exact iff_of_false (fun ⟨_, h⟩ => nomatch h) fun ⟨_, _, h⟩ => nomatch h
          | ok replies => exact iff_of_true ⟨_, rfl⟩ ⟨⟨reply, rfl⟩, replies, rfl⟩

/-- A parser that knows the first of two bodies only. -/
theorem serves_iff_idBody :
    let parse := parseOnly idBody ((Json.obj (idMembers ['a', 'b'])).mapText utf8)
    let db := Documented.tieDatabase.mapText utf8
    (∃ replies, [idBody, nulBody].mapM (auctionHandler parse db) = .ok replies)
      ↔ ∀ data ∈ [idBody, nulBody], ∃ members, parse data = some (.obj members)
        ∧ Exact db ((requestOf (.obj members)).mapText cString) :=
  serves_iff (by decide) [idBody, nulBody]

/-! ### A driver that throws -/

section Tracked

variable {m : Type → Type} [Monad m] [MonadExceptOf Stop m]

def Tracked.auctionHandler (connector : MySQLConnector m)
    (parse : List UInt8 → Option (Json UInt8)) (db : Database UInt8) (data : List UInt8) :
    m Reply := do
  let request ← Tracked.ofAbort (parseRequest parse data)
  pure (.answer sendWinnerResponse (← Tracked.auction connector db request))

end Tracked

variable {driver : ℕ → Throws} {faults : Set Stop}
  (hdriver : ∀ n, driver n ≠ .quiet → .sqlException ∈ faults)

include hdriver

theorem auctionHandler_closes (data : List UInt8) :
    Closes faults (Tracked.auctionHandler (trackedConnector driver) parse db data)
      (undisturbed (auctionHandler parse db data)) := by
  rw [auctionHandler, undisturbed_bind]
  refine (makes_ofAbort _).failStop.bind fun request _ => ?_
  rw [undisturbed_bind]
  exact (auction_makes hdriver db request).failStop.bind fun _ _ => .pure _

theorem mapM_closes (bodies : List (List UInt8)) :
    Closes faults (bodies.mapM (Tracked.auctionHandler (trackedConnector driver) parse db))
      (undisturbed (bodies.mapM (auctionHandler parse db))) := by
  induction bodies with
  | nil => exact .pure _
  | cons data bodies ih =>
      rw [List.mapM_cons, List.mapM_cons, undisturbed_bind]
      refine (auctionHandler_closes hdriver data).bind fun reply _ => ?_
      rw [undisturbed_bind]
      exact ih.bind fun replies _ => .pure _

omit hdriver in
/-- **The process**, however its driver throws: when a sequence of bodies is through or an
exception has ended it, every connection has been closed once and the mutex is unlocked,
and the replies are those over a driver that never throws. -/
theorem process_closesAll (parse : List UInt8 → Option (Json UInt8)) (driver : ℕ → Throws)
    (db : Database UInt8) (bodies : List (List UInt8)) :
    let out := FirstFault.run
      (bodies.mapM (Tracked.auctionHandler (trackedConnector driver) parse db)) .start
    out.2.connections.ClosesAll ∧ out.2.locked = false
      ∧ (out.1 = .error .sqlException
        ∨ out.1 = undisturbed (bodies.mapM (auctionHandler parse db))) := by
  intro out
  obtain ⟨⟨hbalanced, hlocked⟩, hout⟩ :=
    mapM_closes (throws_mem driver) bodies .start Resources.released_start
  refine ⟨hbalanced.closesAll, hlocked, hout.imp_left fun ⟨err, hmem, herr⟩ => ?_⟩
  obtain rfl := Set.mem_singleton_iff.mp hmem
  exact herr

end Cpp

/-! ## Go -/

namespace Go

/-- encoding/json on the bytes of a string, from the byte `skip` on: character by
character, and U+FFFD for a byte that begins none. -/
def stringFrom : ℕ → List UInt8 → List Char
  | _, [] => []
  | skip + 1, _ :: bytes => stringFrom skip bytes
  | 0, byte :: bytes =>
      match (byte :: bytes).toByteArray.utf8DecodeChar? 0 with
      | some c => written escape c ++ stringFrom (c.utf8Size - 1) bytes
      | none => hexEscape Nat.digitChar 0xfffd ++ stringFrom 0 bytes

/-- `json.Marshal(response)`, from the bytes of the strings -/
def marshal (response : Response UInt8) : List UInt8 :=
  let string (s : List UInt8) : List Char := quoteMark :: (stringFrom 0 s ++ [quoteMark])
  utf8 (winnerObject (string response.auctionId) (string response.ads)
    (units (double response.price)))

def auctionHandler (scan : List UInt8 → Option (Json UInt8)) (runtime : Runtime UInt8)
    (faults : Faults) (db : Database UInt8) (body : List UInt8) : Except Panic Reply := do
  match ← auction runtime faults db (parseRequest scan body) with
  | (_, some _) => pure sendNobidResponse
  | (response, none) => pure ⟨200, marshal response⟩

theorem stringFrom_skip {skip : ℕ} {bytes : List UInt8} :
    stringFrom skip bytes = stringFrom 0 (bytes.drop skip) := by
  induction skip generalizing bytes with
  | zero => rfl
  | succ skip ih =>
      cases bytes with
      | nil => rfl
      | cons byte bytes => exact ih

/-- On UTF-8 every character is found. -/
theorem stringFrom_utf8 (s : List Char) : stringFrom 0 (utf8 s) = s.flatMap (written escape) := by
  induction s with
  | nil => rfl
  | cons c s ih =>
      have hlength := String.length_utf8EncodeChar c
      have hdecode : (utf8 (c :: s)).toByteArray.utf8DecodeChar? 0 = some c :=
        List.utf8DecodeChar?_utf8Encode_cons
      have hdrop : (utf8 (c :: s)).drop c.utf8Size = utf8 s := by
        rw [utf8_cons, ← hlength, List.drop_left]
      cases hbytes : utf8 (c :: s) with
      | nil =>
          have hpos := c.utf8Size_pos
          rw [utf8_cons, List.append_eq_nil_iff] at hbytes
          rw [hbytes.1, List.length_nil] at hlength
          omega
      | cons byte bytes =>
          rw [hbytes] at hdecode hdrop
          obtain ⟨n, hn⟩ : ∃ n, c.utf8Size = n + 1 := ⟨_, (Nat.succ_pred c.utf8Size_pos.ne').symm⟩
          rw [hn, List.drop_succ_cons] at hdrop
          rw [stringFrom, hdecode]
          show written escape c ++ stringFrom (c.utf8Size - 1) bytes = _
          rw [hn, Nat.add_sub_cancel, stringFrom_skip, hdrop, ih, List.flatMap_cons]

theorem marshal_utf8 (response : Response Char) :
    marshal (response.mapText utf8) = sendWinnerResponse response := by
  rw [marshal, sendWinnerResponse, quote_eq_quoted, quote_eq_quoted]
  simp only [Response.mapText, stringFrom_utf8]
  rfl

/-- **The Go handler replies** to every body, whatever the body and the database hold,
whichever fetches fail and however the runtime behaves. -/
theorem replies (scan : List UInt8 → Option (Json UInt8)) (runtime : Runtime UInt8)
    (faults : Faults) (db : Database UInt8) (body : List UInt8) :
    ∃ reply, auctionHandler scan runtime faults db body = .ok reply
      ∧ (reply.status = 200 ∨ reply = sendNobidResponse) := by
  obtain ⟨⟨response, err⟩, -, hout, -⟩ :=
    auction_reaching faults db (parseRequest scan body) runtime
  rw [auctionHandler, hout]
  cases err with
  | some err => exact ⟨_, rfl, .inr rfl⟩
  | none => exact ⟨_, rfl, .inl rfl⟩

/-- The reply is the one to the bid. -/
theorem auctionHandler_bid {scan : List UInt8 → Option (Json UInt8)} {runtime : Runtime UInt8}
    {faults : Faults} {db : Database UInt8} {body : List UInt8}
    {out : Response UInt8 × Option GoError}
    (hout : auction runtime faults db (parseRequest scan body) = .ok out) :
    auctionHandler scan runtime faults db body = .ok (match bid out with
      | some response => ⟨200, marshal response⟩
      | none => sendNobidResponse) := by
  rw [auctionHandler, hout]
  obtain ⟨response, err⟩ := out
  cases err <;> rfl

end Go

/-! ## Python -/

namespace Py

section Answer

variable {m : Type → Type} [Monad m] [MonadExceptOf PyException m]

def answer (connector : MySQLConnector m) (db : Database Char) (request : Request Char) :
    m Reply := do
  pure (.answer sendWinnerResponse (← auction connector db request))

end Answer

/-- `auction_handler` on a body whose members have their types: it goes on with the
request that the parser's is equal to, whatever is left of earlier connections. -/
inductive Handles (loads : List UInt8 → Option (Json Char)) (driver : ℕ → Raises)
    (db : Database Char) (data : List UInt8) : Except PyException Reply → Prop
  | raises {err : PyException} (hparse : parseRequest loads data = .error err) :
      Handles loads driver db data (.error err)
  | answers {raw : RawRequest Char} {request : Request Char} {s : Connections}
      (hparse : parseRequest loads data = .ok raw) (hrequest : raw.Equals request) :
      Handles loads driver db data
        (FirstFault.run (answer (trackedConnector driver) db request) s).1

theorem RawRequest.Equals.unique {raw : RawRequest Char} {request request' : Request Char}
    (h : raw.Equals request) (h' : raw.Equals request') : request = request' := by
  have hfeature := Option.some.inj (h.feature.symm.trans h'.feature)
  rw [Request.mk.injEq]
  refine ⟨?_, ?_, ?_, ?_, ?_, ?_⟩
  · exact Json.str.inj (h.auctionId.symm.trans h'.auctionId)
  · exact Json.nats_injective (h.categoryIds.symm.trans h'.categoryIds)
  · exact_mod_cast hfeature
  · exact_mod_cast Json.int.inj (h.zoneWidth.symm.trans h'.zoneWidth)
  · exact_mod_cast Json.int.inj (h.zoneHeight.symm.trans h'.zoneHeight)
  · exact Json.strs_injective (h.blockDomains.symm.trans h'.blockDomains)

end Py

/-! ## The evaluation -/

open Documented CreateData

/-- The replies that the handlers make of the result, to the byte; the Python handler if
no ad on offer has the feature 0, and whatever its driver raises. -/
structure Answered (parse scan : List UInt8 → Option (Json UInt8))
    (loads : List UInt8 → Option (Json Char)) (db : Database Char) (request : Request Char)
    (body : List UInt8) (result : Option (Response Char)) : Prop where
  cpp : Cpp.auctionHandler parse (db.mapText utf8) body
    = .ok (.answer (Cpp.sendWinnerResponse ∘ Response.mapText utf8) result)
  go : ∀ runtime, Go.auctionHandler scan runtime Go.noFaults (db.mapText utf8) body
    = .ok (.answer Go.sendWinnerResponse result)
  py : (∀ ads ∈ offers db request, featureOf db ads.adsId ≠ 0) →
    Py.Handles loads Py.quietDriver db body (.ok (.answer Py.sendWinnerResponse result))
      ∧ ∀ driver reply, Py.Handles loads driver db body (.ok reply) →
        reply = .answer Py.sendWinnerResponse result

/-- Every handler replies to the body with the result; the Python handler if no ad on
offer has the feature 0, and with nothing else if its driver raises. -/
structure Handled (parse scan : List UInt8 → Option (Json UInt8))
    (loads : List UInt8 → Option (Json Char)) (db : Database Char) (request : Request Char)
    (body : List UInt8) (result : Option (Response Char)) : Prop where
  cpp : ∃ reply, Cpp.auctionHandler parse (db.mapText utf8) body = .ok reply ∧ reply.Says result
  go : ∀ runtime, ∃ reply,
    Go.auctionHandler scan runtime Go.noFaults (db.mapText utf8) body = .ok reply
      ∧ reply.Says result
  py : (∀ ads ∈ offers db request, featureOf db ads.adsId ≠ 0) →
    (∃ reply, Py.Handles loads Py.quietDriver db body (.ok reply))
      ∧ ∀ driver reply, Py.Handles loads driver db body (.ok reply) → reply.Says result

section Answered

variable {db : Database Char} {request : Request Char} {body : List UInt8}
  {result : Option (Response Char)}

theorem Cpp.auctionHandler_answers {parse : List UInt8 → Option (Json UInt8)}
    (hparse : Cpp.parseRequest parse body = .ok (request.mapText utf8))
    (htypes : DocumentedTypes db) (hauction : Cpp.auction db request = .ok result) :
    Cpp.auctionHandler parse (db.mapText utf8) body
      = .ok (.answer (Cpp.sendWinnerResponse ∘ Response.mapText utf8) result) := by
  rw [Cpp.auctionHandler, hparse]
  show (Cpp.auction (db.mapText utf8) (request.mapText utf8) >>= _) = _
  rw [Cpp.auction_mapText preservesInfix_utf8 db request htypes, hauction]
  cases result with
  | none => exact rfl
  | some response => exact rfl

theorem Go.auctionHandler_answers {scan : List UInt8 → Option (Json UInt8)}
    (hparse : Go.parseRequest scan body = request.mapText utf8) (runtime : Go.Runtime UInt8)
    {out : Response Char × Option Go.GoError}
    (hauction : Go.auction Go.stableRuntime Go.noFaults db request = .ok out)
    (hbid : Go.bid out = result) :
    Go.auctionHandler scan runtime Go.noFaults (db.mapText utf8) body
      = .ok (.answer Go.sendWinnerResponse result) := by
  obtain ⟨out', bytes, hout', hbytes, hmap⟩ :=
    Go.bid_mapText preservesInfix_utf8 db request Go.stableRuntime runtime
  obtain rfl := Except.ok.inj (hauction.symm.trans hout')
  rw [← hparse] at hbytes
  rw [Go.auctionHandler_bid hbytes, hmap, hbid]
  cases result with
  | none => exact rfl
  | some response =>
      show Except.ok (Reply.mk 200 (Go.marshal (response.mapText utf8))) = _
      rw [Go.marshal_utf8]
      rfl

theorem Py.answer_failStop {driver : ℕ → Py.Raises} {faults : Set Py.PyException}
    (hdriver : ∀ n, Py.Raised driver n → .driver ∈ faults) (db : Database Char)
    (request : Request Char) :
    FirstFault.FailStop Py.Always faults (Py.answer (Py.trackedConnector driver) db request)
      (Py.answer Py.plainConnector db request) :=
  (Py.auction_makes hdriver db request).failStop.bind fun _ _ => .pure _

/-- Whatever the driver raises, a reply is the one to the result. -/
theorem Py.handles_answers {loads : List UInt8 → Option (Json Char)} {raw : Py.RawRequest Char}
    (hparse : Py.parseRequest loads body = .ok raw) (hequals : raw.Equals request)
    (hauction : Py.auction Py.plainConnector db request = .ok result) :
    Py.Handles loads Py.quietDriver db body (.ok (.answer Py.sendWinnerResponse result))
      ∧ ∀ driver reply, Py.Handles loads driver db body (.ok reply) →
        reply = .answer Py.sendWinnerResponse result := by
  have hanswer : Py.answer Py.plainConnector db request
      = .ok (.answer Py.sendWinnerResponse result) := by
    rw [Py.answer, hauction]
    rfl
  constructor
  · have hnever : ∀ n, Py.Raised Py.quietDriver n → Py.PyException.driver ∈ (∅ : Set _) :=
      fun n hraised => absurd rfl hraised
    have hhandles : Py.Handles loads Py.quietDriver db body _ :=
      .answers (s := ⟨0, [], []⟩) hparse hequals
    rwa [(Py.answer_failStop hnever db request).eq_of_empty trivial, hanswer] at hhandles
  · intro driver reply hhandles
    generalize hout : (Except.ok reply : Except Py.PyException Reply) = out at hhandles
    cases hhandles with
    | raises hparse' => cases hout
    | answers hparse' hequals' =>
        obtain rfl := Except.ok.inj (hparse.symm.trans hparse')
        obtain rfl := hequals.unique hequals'
        have hdriver : ∀ n, Py.Raised driver n → Py.PyException.driver ∈ ({.driver} : Set _) :=
          fun _ _ => Set.mem_singleton _
        rcases (Py.answer_failStop hdriver db request _ trivial).2 with ⟨err, -, herr⟩ | hplain
        · cases hout.trans herr
        · exact Except.ok.inj (hout.trans (hplain.trans hanswer))

/-- The bytes say the result. -/
theorem Answered.handled {parse scan : List UInt8 → Option (Json UInt8)}
    {loads : List UInt8 → Option (Json Char)}
    (h : Answered parse scan loads db request body result)
    (hprice : ∀ response, result = some response → response.price < 10 ^ 15) :
    Handled parse scan loads db request body result where
  cpp := ⟨_, h.cpp, Reply.answer_says fun response hresponse =>
    cpp_denotes (hprice response hresponse)⟩
  go runtime := ⟨_, h.go runtime, Reply.answer_says fun response hresponse =>
    go_denotes (hprice response hresponse)⟩
  py hzero := by
    obtain ⟨hquiet, hreply⟩ := h.py hzero
    refine ⟨⟨_, hquiet⟩, fun driver reply hhandles => ?_⟩
    obtain rfl := hreply driver reply hhandles
    exact Reply.answer_says fun response hresponse => py_denotes (hprice response hresponse)

end Answered

/-- On a database on which C++ breaks its ties as documented. -/
theorem answered_of_allReturn {parse scan : List UInt8 → Option (Json UInt8)}
    {loads : List UInt8 → Option (Json Char)} {db : Database Char} {request : Request Char}
    {body : List UInt8} (hbody : AllReturn parse scan loads body request)
    (htypes : DocumentedTypes db) (hfeatures : DocumentedFeatures db)
    (hhas : ∀ ads ∈ db.adses, HasFeature db ads) (hr : DocumentedFeature request.feature)
    (hrank : ∀ a b, Candidate db request a → Candidate db request b →
      (rank a ≤ rank b ↔ Cpp.advertiserRank a ≤ Cpp.advertiserRank b)) :
    ∃ winner, Selection.Selects winner (Winner db request)
      ∧ Answered parse scan loads db request body (winner.map (respond request)) := by
  obtain ⟨hcpp, hgo, raw, hraw, hequals⟩ := hbody
  obtain ⟨winner, hwinner, hselects⟩ := Cpp.auctionWinner_eq htypes hfeatures hr
  have hdocumented : Selection.Selects winner (Winner db request) := fun ads =>
    (hselects ads).trans (Selection.Winner.congr_rank hrank ads).symm
  refine ⟨winner, hdocumented, ?_, fun runtime => ?_, fun hzero => ?_⟩
  · refine Cpp.auctionHandler_answers hcpp htypes ?_
    rw [Cpp.auction, hwinner]
    rfl
  · obtain ⟨out, winner', hout, hbid, hselects'⟩ :=
      Go.auction_noFaults Go.stableRuntime htypes hfeatures hr
    obtain rfl := hselects'.eq hdocumented fun _ => Iff.rfl
    exact Go.auctionHandler_answers hgo runtime hout hbid
  · obtain ⟨winner', hwinner', hselects'⟩ := Py.auctionWinner_eq htypes hfeatures hhas hr
    rw [Py.visible_eq_offers hzero] at hselects'
    obtain rfl := hselects'.eq hdocumented fun _ => Iff.rfl
    refine Py.handles_answers hraw hequals ?_
    rw [Py.auction, hwinner']
    rfl

/-- A response is for a stored ad. -/
theorem stored_of_respond {db : Database Char} {request : Request Char}
    {winner : Option (Ads Char)} (hselects : Selection.Selects winner (Winner db request))
    {response : Response Char} (h : winner.map (respond request) = some response) :
    ∃ ads ∈ db.adses, response = respond request ads := by
  obtain ⟨ads, hads, rfl⟩ := Option.map_eq_some_iff.mp h
  exact ⟨ads, offers_stored ((hselects ads).mp hads).1.1, rfl⟩

/-- A request of the evaluation on generated data: the handlers answer with the
documented result, whose response is alphanumeric and at a price of the generator. -/
theorem evaluation_answered {parse scan : List UInt8 → Option (Json UInt8)}
    {loads : List UInt8 → Option (Json Char)} (draws : List AdvertiserDraw) (draw : RequestDraw)
    (hdecodes : ∀ document, read (requestText draw) = some document →
      Decodes parse scan loads (utf8 (requestText draw)) document) :
    ∃ result, IsResult (createDatabase draws) draw.requestData result
      ∧ Answered parse scan loads (createDatabase draws) draw.requestData
        (utf8 (requestText draw)) result
      ∧ ∀ response, result = some response → Plain response := by
  have hlegible := legible_createData draws
  obtain ⟨winner, hselects, hanswered⟩ := answered_of_allReturn
    (allReturn_requestText draw hdecodes) (documentedTypes_createDatabase draws)
    (documentedFeatures_createDatabase draws) (fun ads hads => by
      have hmem : ads.adsId ∈ (createData draws).adsFeatures.map AdsFeature.adsId := by
        rw [features_adsId]
        exact List.mem_map_of_mem hads
      exact List.mem_map.mp hmem) draw.zoneFeature_range
    fun a b ha hb => rank_le_iff_advertiserRank_le ha hb
  refine ⟨_, isResult_of_selects hselects, hanswered, fun response hresponse => ?_⟩
  obtain ⟨ads, hads, rfl⟩ := stored_of_respond hselects hresponse
  have hprice := (hlegible.prices ads hads).2
  refine ⟨fun c hc => ?_, (hlegible.texts ads hads).2, ?_⟩
  · exact isAlphanum_of_mem_letters (draw.auctionId.text_mem c hc)
  · show ads.price < 10 ^ 15
    omega

/-- **The evaluation.** Whatever was drawn, and whatever libraries decode the text of a
request as the JSON it is, the handlers reply with the documented result. -/
theorem evaluation_handled {parse scan : List UInt8 → Option (Json UInt8)}
    {loads : List UInt8 → Option (Json Char)} (draws : List AdvertiserDraw) (draw : RequestDraw)
    (hdecodes : ∀ document, read (requestText draw) = some document →
      Decodes parse scan loads (utf8 (requestText draw)) document) :
    ∃ result, IsResult (createDatabase draws) draw.requestData result
      ∧ Handled parse scan loads (createDatabase draws) draw.requestData
        (utf8 (requestText draw)) result := by
  obtain ⟨result, hresult, hanswered, hplain⟩ := evaluation_answered draws draw hdecodes
  exact ⟨result, hresult, hanswered.handled fun response h => (hplain response h).price⟩

/-! ## One request -/

def oneRequest : RequestDraw where
  auctionId := repeatedLetter 16
  categoryIds := [3, 4]
  categoryIds_nodup := by decide
  categoryIds_range := by decide
  zoneFeature := -5
  zoneFeature_range := by decide
  zoneSize := (200, 300)
  zoneSize_mem := by decide
  blockDomains := ["Data".toList]
  blockDomains_mem := by decide

theorem evaluation_handled_oneRequest :
    let document : Json Char := .obj (requestMembers oneRequest)
    let body := utf8 (requestText oneRequest)
    ∃ result, IsResult (createDatabase [oneAdvertiser]) oneRequest.requestData result
      ∧ Handled (parseOnly body (document.mapText utf8)) (parseOnly body (document.mapText utf8))
        (parseOnly body document) (createDatabase [oneAdvertiser]) oneRequest.requestData body
        result := by
  refine evaluation_handled [oneAdvertiser] oneRequest fun document hread => ?_
  obtain rfl := Option.some.inj ((reads_requestText oneRequest).read.symm.trans hread)
  exact decodes_parseOnly _ _

end AuctionWorker
