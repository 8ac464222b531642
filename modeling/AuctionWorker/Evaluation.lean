import AuctionWorker.Handlers
import AuctionWorker.ResultFile

/-!
# Evaluations

`test/calculate_performance.py` against one of the servers, on generated data: the
workers post the generated requests, and what the server replies goes into the file.

- The file is the one of the documented results of the requests (`evaluation_file`):
  neither the workers nor failing connections show in it, nor exceptions of the driver
  in the Python server, or in the C++ process until it is started again.
- Two implementations write the same file exactly if they spell whole prices the same
  or no winner has one (`sameFile_iff`).
- An evaluation can always be finished (`evaluates_exists`).

A request is named by its draw in the queue and posted as its text. Its answer is the
text whose bytes were received.
-/

namespace AuctionWorker

open Documented CreateData ScoreScript Machine Text

/-! ## The answers -/

/-- `json.dumps` for the status code 204. The texts of the queue have a string for the
`auction_id`. -/
def noContents (data : List Char) : List Char :=
  let auctionId := (JsonText.read data).bind fun json =>
    (Py.subscript json (ascii "auction_id")).toOption.bind Json.string?
  dumpsObject [("auction_id", (auctionId.map dumpsString).getD "null".toList),
    ("message", dumpsString "No Contents".toList)]

/-- `get_language` -/
inductive Language where
  | python
  | golang
  | cpp
deriving Repr, DecidableEq

namespace Language

/-- What follows a whole price. -/
def whole : Language → List Char
  | .golang => []
  | .python | .cpp => ['.', '0']

/-- The replies of the server to a body, whatever the drivers of Python and C++ raise. -/
def Replies (parse scan : List UInt8 → Option (Json UInt8))
    (loads : List UInt8 → Option (Json Char)) (db : Database Char) :
    Language → List UInt8 → Reply → Prop
  | .python, body, reply => ∃ driver, Py.Handles loads driver db body (.ok reply)
  | .golang, body, reply => ∃ runtime,
      Go.auctionHandler scan runtime Go.noFaults (db.mapText utf8) body = .ok reply
  | .cpp, body, reply => ∃ driver s, Cpp.Resources.Released s
      ∧ (FirstFault.run (Cpp.Tracked.auctionHandler (Cpp.trackedConnector driver) parse
        (db.mapText utf8) body) s).1 = .ok reply

/-- The Python server does not see ads with the feature 0. -/
def Sees (lang : Language) (db : Database Char) (request : Request Char) : Prop :=
  lang = .python → ∀ ads ∈ offers db request, featureOf db ads.adsId ≠ 0

end Language

/-- The answer to a request with this result. -/
def answerText (whole : List Char) (draw : RequestDraw) : Option (Response Char) → List Char
  | some response => winnerText whole response
  | none => noContents (requestText draw)

/-! ## Evaluations -/

/-- An accepted status code comes with a reply of the server to the request. Other
status codes and failing connections come as they like. -/
def Served (server : List UInt8 → Reply → Prop) {n : ℕ} (s : State n RequestDraw (List Char)) :
    Action n (List Char) → Prop
  | .post i (.responded status_code text) => ∀ draw, s.workers i = .posting draw →
      status_code = 200 ∨ status_code = 204 →
        server (utf8 (requestText draw)) ⟨status_code, utf8 text⟩
  | _ => True

/-- The file after some run of some workers, all of which are done. -/
def Evaluates (server : List UInt8 → Reply → Prop) (requests : List RequestDraw)
    (file : List Char) : Prop :=
  ∃ (n : ℕ) (as : List (Action n (List Char))) (s : State n RequestDraw (List Char)), 0 < n
    ∧ Steps (State.step (noContents ∘ requestText)) (Served server) (.start requests) as
    ∧ run (State.step (noContents ∘ requestText)) (.start requests) as = some s
    ∧ (∀ i, s.workers i = .done) ∧ file = resultFile (s.response.map Entry.text)

/-! ## Replies to the byte -/

theorem Language.whole_cases (lang : Language) : lang.whole = [] ∨ lang.whole = ['.', '0'] := by
  cases lang
  · exact .inr rfl
  · exact .inl rfl
  · exact .inr rfl

section Replies

variable {parse scan : List UInt8 → Option (Json UInt8)} {loads : List UInt8 → Option (Json Char)}
  {db : Database Char} {request : Request Char} {body : List UInt8}
  {result : Option (Response Char)}

/-- What a server replies to a request that is answered with the result. -/
theorem replies_iff (lang : Language) (hanswered : Answered parse scan loads db request body result)
    (hplain : ∀ response, result = some response → Plain response) (hsees : lang.Sees db request)
    (reply : Reply) :
    lang.Replies parse scan loads db body reply
      ↔ reply = .answer (utf8 ∘ winnerText lang.whole) result := by
  have hcongr : ∀ {send : Response Char → List UInt8},
      (∀ {response}, Plain response → send response = utf8 (winnerText lang.whole response)) →
      Reply.answer send result = Reply.answer (utf8 ∘ winnerText lang.whole) result := by
    intro send hsend
    cases hresult : result with
    | none => rfl
    | some response => exact congrArg (Reply.mk 200) (hsend (hplain response hresult))
  cases lang with
  | python =>
      obtain ⟨hquiet, hreply⟩ := hanswered.py (hsees rfl)
      rw [← hcongr Py.sendWinnerResponse_plain]
      constructor
      · rintro ⟨driver, hhandles⟩
        exact hreply driver reply hhandles
      · rintro rfl
        exact ⟨_, hquiet⟩
  | golang =>
      rw [← hcongr Go.sendWinnerResponse_plain]
      constructor
      · rintro ⟨runtime, hhandler⟩
        exact Except.ok.inj (hhandler.symm.trans (hanswered.go runtime))
      · rintro rfl
        exact ⟨Go.stableRuntime, hanswered.go _⟩
  | cpp =>
      rw [← hcongr Cpp.sendWinnerResponse_plain]
      have hundisturbed : Cpp.undisturbed (Cpp.auctionHandler parse (db.mapText utf8) body)
          = .ok (.answer (Cpp.sendWinnerResponse ∘ Response.mapText utf8) result) := by
        rw [hanswered.cpp]
        rfl
      constructor
      · rintro ⟨driver, s, hs, hhandler⟩
        rcases (Cpp.auctionHandler_closes (Cpp.throws_mem driver) body s hs).2 with
          ⟨err, -, herr⟩ | hout
        · rw [hhandler] at herr
          cases herr
        · exact Except.ok.inj (hhandler.symm.trans (hout.trans hundisturbed))
      · rintro rfl
        have hnever : ∀ n, (fun _ : ℕ => Cpp.Throws.quiet) n ≠ .quiet →
            Cpp.Stop.sqlException ∈ (∅ : Set _) := fun n hthrows => absurd rfl hthrows
        have hstart := Cpp.Resources.released_start
        exact ⟨_, _, hstart,
          ((Cpp.auctionHandler_closes hnever body).eq_of_empty hstart).trans hundisturbed⟩

end Replies

/-! ## The file of an evaluation -/

section Evaluates

variable {parse scan : List UInt8 → Option (Json UInt8)} {loads : List UInt8 → Option (Json Char)}
  {draws : List AdvertiserDraw} {requests : List RequestDraw}
  (hdecodes : ∀ draw ∈ requests, ∀ document, JsonText.read (requestText draw) = some document →
    Decodes parse scan loads (utf8 (requestText draw)) document)

/-- The documented results of the requests, and their replies. -/
structure Results (parse scan : List UInt8 → Option (Json UInt8))
    (loads : List UInt8 → Option (Json Char)) (db : Database Char) (requests : List RequestDraw)
    (result : RequestDraw → Option (Response Char)) : Prop where
  isResult : ∀ draw ∈ requests, IsResult db draw.requestData (result draw)
  answered : ∀ draw ∈ requests,
    Answered parse scan loads db draw.requestData (utf8 (requestText draw)) (result draw)
  plain : ∀ draw ∈ requests, ∀ response, result draw = some response → Plain response

include hdecodes in
theorem exists_results :
    ∃ result, Results parse scan loads (createDatabase draws) requests result := by
  have hexists : ∀ draw ∈ requests, ∃ result,
      IsResult (createDatabase draws) draw.requestData result
      ∧ Answered parse scan loads (createDatabase draws) draw.requestData
        (utf8 (requestText draw)) result
      ∧ ∀ response, result = some response → Plain response := fun draw hdraw =>
    evaluation_answered draws draw (hdecodes draw hdraw)
  choose! result hresult using hexists
  exact ⟨result, fun draw h => (hresult draw h).1, fun draw h => (hresult draw h).2.1,
    fun draw h => (hresult draw h).2.2⟩

variable {db : Database Char} {result : RequestDraw → Option (Response Char)} {lang : Language}
  (hresults : Results parse scan loads db requests result)
  (hsees : ∀ draw ∈ requests, lang.Sees db draw.requestData)

include hresults hsees

/-- What a worker accepts of the replies is the text of the result. -/
theorem conforms_of_served {n : ℕ} {s : State n RequestDraw (List Char)} {a : Action n (List Char)}
    (h : Served (lang.Replies parse scan loads db) s a) :
    s.Conforms (noContents ∘ requestText) (fun draw => answerText lang.whole draw (result draw))
      requests a := by
  cases a with
  | post i r =>
      cases r with
      | failed => trivial
      | responded status_code text =>
          intro draw hdraw hposting text' hstatus
          have hreplies := fun hcode => (replies_iff lang (hresults.answered draw hdraw)
            (hresults.plain draw hdraw) (hsees draw hdraw) _).mp (h draw hposting hcode)
          show text' = answerText lang.whole draw (result draw)
          unfold State.onStatus at hstatus
          split_ifs at hstatus with hok hnobid
          · obtain rfl := (Worker.appending.inj hstatus).2
            have hreply := hreplies (.inl hok)
            cases hresult : result draw with
            | none =>
                rw [hresult, hok] at hreply
                cases hreply
            | some response =>
                rw [hresult, hok] at hreply
                exact utf8_injective (Reply.mk.inj hreply).2
          · obtain rfl := (Worker.appending.inj hstatus).2
            have hreply := hreplies (.inr hnobid)
            cases hresult : result draw with
            | none => rfl
            | some response =>
                rw [hresult, hnobid] at hreply
                cases hreply
  | get i => trivial
  | timeout i => trivial
  | leave i => trivial
  | putBack i => trivial
  | append i => trivial

theorem file_of_results {file : List Char}
    (h : Evaluates (lang.Replies parse scan loads db) requests file) :
    file = resultFile (requests.map fun draw => answerText lang.whole draw (result draw)) := by
  obtain ⟨n, as, s, hn, hsteps, hrun, hdone, rfl⟩ := h
  have hperm := State.response_perm hn
    (hsteps.mono fun s a => conforms_of_served hresults hsees) hrun hdone
  rw [resultFile, insertionSort_eq_iff.mpr hperm]
  rfl

end Evaluates

/-! ## The texts of the answers -/

section Texts

theorem dumpsString_alphanum {s : List Char} (hs : ∀ c ∈ s, c.isAlphanum) :
    dumpsString s = quotes s := by
  have hquote : quote Py.escape s = units [Char.ofNat 0x22] ++ s ++ units [Char.ofNat 0x22] :=
    quote_eq fun c hc => Py.escape_eq_none (hs c hc)
  rw [units_char] at hquote
  exact (quote_eq_quoted Py.escape s).symm.trans hquote

theorem dumpsObject_message (auctionId : List Char) :
    dumpsObject [("auction_id", auctionId), ("message", dumpsString "No Contents".toList)]
      = ascii "\x7b\"auction_id\": " ++ auctionId
        ++ ascii ", \"message\": \"No Contents\"\x7d" := by
  have hid : dumpsString (ascii "auction_id") = ascii "\"auction_id\"" := by decide +kernel
  have hname : dumpsString (ascii "message") = ascii "\"message\"" := by decide +kernel
  have hmessage : dumpsString "No Contents".toList = ascii "\"No Contents\"" := by decide +kernel
  rw [dumpsString] at hid hname
  simp only [dumpsObject, JsonText.memberText, hid, hname, hmessage, List.map_cons, List.map_nil,
    List.intercalate_cons_cons, List.intercalate_singleton]
  simp [ascii, CodeUnit.ofChar]

/-- The answer to a generated request names it. -/
theorem noContents_requestText (draw : RequestDraw) :
    noContents (requestText draw) = ascii "\x7b\"auction_id\": " ++ quotes draw.auctionId.text
      ++ ascii ", \"message\": \"No Contents\"\x7d" := by
  have hmember : Py.subscript (Json.obj (requestMembers draw)) (ascii "auction_id")
      = .ok (.str draw.auctionId.text) := by
    have hlookup : (requestMembers draw).lookup (ascii "auction_id")
        = some (.str draw.auctionId.text) :=
      (Json.lookup_eq_some_iff_mem (wellTyped_requestMembers draw).nodup).mpr (.head _)
    rw [Py.subscript, Json.lookup_reverse (wellTyped_requestMembers draw).nodup, hlookup]
  rw [noContents, (reads_requestText draw).read, Option.bind_some, hmember,
    ← dumpsString_alphanum draw.auctionId.alphanum, ← dumpsObject_message]
  rfl

/-- The blank after the colon tells the two kinds of answers apart. -/
theorem noContents_ne_winnerText (draw : RequestDraw) (whole : List Char)
    (response : Response Char) : noContents (requestText draw) ≠ winnerText whole response := by
  intro h
  have hblank : (noContents (requestText draw))[14]? = some ' ' := by
    rw [noContents_requestText]
    rfl
  have hquote : (winnerText whole response)[14]? = some (Char.ofNat 0x22) := rfl
  rw [h, hquote] at hblank
  exact absurd hblank (by decide)

theorem newline_notMem_quotes {s : List Char} (hs : ∀ c ∈ s, c.isAlphanum) :
    '\n' ∉ quotes s := by
  have hs' : '\n' ∉ s := fun hmem => absurd (hs _ hmem) (by decide)
  simp only [quotes, List.mem_append, List.mem_singleton, hs', or_false]
  decide

theorem newline_notMem_winnerText {whole : List Char} (hwhole : whole = [] ∨ whole = ['.', '0'])
    {response : Response Char} (h : Plain response) : '\n' ∉ winnerText whole response := by
  have hprice : '\n' ∉ Float64.positional whole response.price 4 := by
    intro hmem
    rcases Float64.mem_positional hmem with hdigit | hpoint | hmem
    · exact absurd hdigit (by decide)
    · exact absurd hpoint (by decide)
    · rcases hwhole with rfl | rfl
      · exact absurd hmem (by decide)
      · exact absurd hmem (by decide)
  have hauctionId := newline_notMem_quotes h.auctionId
  have hads := newline_notMem_quotes h.ads
  simp only [winnerText, winnerObject, List.mem_append, hprice, hauctionId, hads, or_false]
  decide

theorem newline_notMem_noContents (draw : RequestDraw) : '\n' ∉ noContents (requestText draw) := by
  have hid := newline_notMem_quotes draw.auctionId.alphanum
  simp only [noContents_requestText, List.mem_append, hid, or_false]
  decide

/-- The text of a winner says the response, however a whole price is spelled. -/
theorem denotes_winnerText {whole : List Char} (hwhole : whole = [] ∨ whole = ['.', '0'])
    {response : Response Char} (h : Plain response) :
    Denotes (utf8 (winnerText whole response)) response := by
  rcases hwhole with rfl | rfl
  · rw [← Go.sendWinnerResponse_plain h]
    exact go_denotes h.price
  · rw [← Py.sendWinnerResponse_plain h]
    exact py_denotes h.price

end Texts

/-! ## The results alone -/

theorem Documented.IsResult.unique {db : Database Char} {request : Request Char}
    {result result' : Option (Response Char)} (h : IsResult db request result)
    (h' : IsResult db request result') : result = result' := by
  by_cases hnone : ∀ ads, ¬Candidate db request ads
  · rw [h.nobid.mpr hnone, h'.nobid.mpr hnone]
  · push Not at hnone
    obtain ⟨ads, hads⟩ := hnone
    obtain ⟨winner, hwinner⟩ := exists_winner_of_candidate hads
    rw [h.winner winner hwinner, h'.winner winner hwinner]

section Main

variable {parse scan : List UInt8 → Option (Json UInt8)} {loads : List UInt8 → Option (Json Char)}
  {draws : List AdvertiserDraw} {requests : List RequestDraw}
  (hdecodes : ∀ draw ∈ requests, ∀ document, JsonText.read (requestText draw) = some document →
    Decodes parse scan loads (utf8 (requestText draw)) document)

include hdecodes

/-- **The file of an evaluation** holds the documented results of the generated requests,
sorted, however many workers there are, however they interleave, and whatever fails. -/
theorem evaluation_file {lang : Language}
    (hsees : ∀ draw ∈ requests, lang.Sees (createDatabase draws) draw.requestData)
    {file : List Char}
    (h : Evaluates (lang.Replies parse scan loads (createDatabase draws)) requests file) :
    ∃ result : RequestDraw → Option (Response Char),
      (∀ draw ∈ requests, IsResult (createDatabase draws) draw.requestData (result draw))
        ∧ file = resultFile (requests.map fun draw =>
          answerText lang.whole draw (result draw)) := by
  obtain ⟨result, hresults⟩ := exists_results hdecodes
  exact ⟨result, hresults.isResult, file_of_results hresults hsees h⟩

end Main

/-! ## Two implementations -/

theorem winnerText_eq_iff {whole whole' : List Char} (hwhole : whole = [] ∨ whole = ['.', '0'])
    (hwhole' : whole' = [] ∨ whole' = ['.', '0']) {response : Response Char} :
    winnerText whole response = winnerText whole' response
      ↔ whole = whole' ∨ ¬10 ^ 4 ∣ response.price := by
  rcases hwhole with rfl | rfl
  · rcases hwhole' with rfl | rfl
    · simp
    · rw [winnerText_inj_iff, or_iff_right (by decide)]
  · rcases hwhole' with rfl | rfl
    · rw [eq_comm, winnerText_inj_iff, or_iff_right (by decide)]
    · simp

theorem Language.whole_eq_iff {lang lang' : Language} :
    lang.whole = lang'.whole ↔ (lang = .golang ↔ lang' = .golang) := by
  cases lang <;> cases lang' <;> decide

section Texts

variable {whole whole' : List Char} (hwhole : whole = [] ∨ whole = ['.', '0'])
  (hwhole' : whole' = [] ∨ whole' = ['.', '0'])

include hwhole in
theorem newline_notMem_answerText {draw : RequestDraw} {result : Option (Response Char)}
    (hplain : ∀ response, result = some response → Plain response) :
    '\n' ∉ answerText whole draw result := by
  cases result with
  | none => exact newline_notMem_noContents draw
  | some response => exact newline_notMem_winnerText hwhole (hplain response rfl)

include hwhole hwhole'

/-- An answer in one spelling is an answer in another only as the same response. -/
theorem eq_or_not_whole {response : Response Char} (hplain : Plain response)
    {draw : RequestDraw} {result : Option (Response Char)}
    (hplain' : ∀ response, result = some response → Plain response)
    (h : answerText whole' draw result = winnerText whole response) :
    whole = whole' ∨ ¬10 ^ 4 ∣ response.price := by
  cases result with
  | none => exact absurd h (noContents_ne_winnerText draw whole response)
  | some response' =>
      replace h : winnerText whole' response' = winnerText whole response := h
      have hdenotes := denotes_winnerText hwhole' (hplain' response' rfl)
      rw [h] at hdenotes
      obtain rfl := hdenotes.unique (denotes_winnerText hwhole hplain)
      exact (winnerText_eq_iff hwhole hwhole').mp h.symm

end Texts

/-- **Two implementations** write the same file exactly if they spell whole prices the
same, or no winner has a whole price. -/
theorem sameFile_iff {parse scan : List UInt8 → Option (Json UInt8)}
    {loads : List UInt8 → Option (Json Char)} {draws : List AdvertiserDraw}
    {requests : List RequestDraw}
    (hdecodes : ∀ draw ∈ requests, ∀ document, JsonText.read (requestText draw) = some document →
      Decodes parse scan loads (utf8 (requestText draw)) document)
    {lang lang' : Language}
    (hsees : ∀ draw ∈ requests, lang.Sees (createDatabase draws) draw.requestData)
    (hsees' : ∀ draw ∈ requests, lang'.Sees (createDatabase draws) draw.requestData)
    {file file' : List Char}
    (h : Evaluates (lang.Replies parse scan loads (createDatabase draws)) requests file)
    (h' : Evaluates (lang'.Replies parse scan loads (createDatabase draws)) requests file') :
    file = file' ↔ (lang = .golang ↔ lang' = .golang)
      ∨ ∀ draw ∈ requests, ∀ response,
        IsResult (createDatabase draws) draw.requestData (some response)
          → ¬10 ^ 4 ∣ response.price := by
  obtain ⟨result, hresults⟩ := exists_results hdecodes
  rw [← Language.whole_eq_iff, file_of_results hresults hsees h, file_of_results hresults hsees' h']
  constructor
  · intro hfile
    refine or_iff_not_imp_left.mpr fun hne draw hdraw response hresponse => ?_
    have hresult := (hresults.isResult draw hdraw).unique hresponse
    have hnil : requests ≠ [] := List.ne_nil_of_mem hdraw
    have hperm := (resultFile_eq_iff
      (List.forall_mem_map.mpr fun draw hdraw =>
        newline_notMem_answerText lang.whole_cases (hresults.plain draw hdraw))
      (List.forall_mem_map.mpr fun draw hdraw =>
        newline_notMem_answerText lang'.whole_cases (hresults.plain draw hdraw))
      (by simpa using hnil) (by simpa using hnil)).mp hfile
    -- the answer to this request stands in the other file
    obtain ⟨draw', hdraw', heq⟩ := List.mem_map.mp (hperm.subset (List.mem_map_of_mem hdraw))
    rw [hresult] at heq
    have hplain := hresults.plain draw hdraw response hresult
    exact (eq_or_not_whole lang.whole_cases lang'.whole_cases hplain
      (hresults.plain draw' hdraw') heq).resolve_left hne
  · intro h
    refine congrArg resultFile (List.map_congr_left fun draw hdraw => ?_)
    cases hresult : result draw with
    | none => rfl
    | some response =>
        refine (winnerText_eq_iff lang.whole_cases lang'.whole_cases).mpr ?_
        exact h.imp_right fun hall =>
          hall draw hdraw response (hresult ▸ hresults.isResult draw hdraw)

/-! ## Finishing an evaluation -/

section Exists

variable {server : List UInt8 → Reply → Prop}

/-- One worker, request by request, with the reply to each. -/
def oneByOne (reply : RequestDraw → ℕ × List Char) : List RequestDraw → List (Action 1 (List Char))
  | [] => [.timeout 0, .leave 0]
  | draw :: requests =>
      .get 0 :: .post 0 (.responded (reply draw).1 (reply draw).2) :: .append 0
        :: oneByOne reply requests

theorem oneByOne_finishes {reply : RequestDraw → ℕ × List Char} {requests : List RequestDraw}
    (hserver : ∀ draw ∈ requests, ((reply draw).1 = 200 ∨ (reply draw).1 = 204)
      ∧ server (utf8 (requestText draw)) ⟨(reply draw).1, utf8 (reply draw).2⟩)
    (s : State 1 RequestDraw (List Char)) (hque : s.que = requests)
    (hworker : s.workers = fun _ => .getting) :
    Steps (State.step (noContents ∘ requestText)) (Served server) s (oneByOne reply requests)
      ∧ ∃ s', run (State.step (noContents ∘ requestText)) s (oneByOne reply requests) = some s'
        ∧ ∀ i, s'.workers i = .done := by
  have hupdate : ∀ (worker worker' : Worker RequestDraw (List Char)),
      Function.update (fun _ : Fin 1 => worker) 0 worker' = fun _ => worker' := by
    intro worker worker'
    funext i
    rw [Subsingleton.elim i 0, Function.update_self]
  induction requests generalizing s with
  | nil =>
      have htimeout : s.step (noContents ∘ requestText) (.timeout 0)
          = some { s with workers := fun _ => .leaving } := by
        simp [State.step, State.setWorker, hque, hworker, hupdate]
      have hleave : ({ s with workers := fun _ => .leaving } : State 1 _ _).step
          (noContents ∘ requestText) (.leave 0)
          = some { s with workers := fun _ => .done, done_threads := s.done_threads + 1 } := by
        simp [State.step, State.setWorker, hupdate]
      rw [oneByOne, run_cons htimeout, run_cons hleave, steps_cons htimeout, steps_cons hleave]
      exact ⟨⟨trivial, trivial, trivial⟩, _, rfl, fun _ => rfl⟩
  | cons draw requests ih =>
      rw [List.forall_mem_cons] at hserver
      obtain ⟨⟨hcode, hreply⟩, hserver⟩ := hserver
      obtain ⟨text, htext⟩ : ∃ text, State.onStatus (noContents ∘ requestText) draw (reply draw).1
          (reply draw).2 = .appending draw text := by
        unfold State.onStatus
        rcases hcode with hok | hnobid
        · exact ⟨_, if_pos hok⟩
        · exact ⟨_, by rw [hnobid]; rfl⟩
      have hget : s.step (noContents ∘ requestText) (.get 0)
          = some { s with que := requests, workers := fun _ => .posting draw } := by
        simp [State.step, State.setWorker, hque, hworker, hupdate]
      have hpost : ({ s with que := requests, workers := fun _ => .posting draw } :
          State 1 _ _).step (noContents ∘ requestText)
            (.post 0 (.responded (reply draw).1 (reply draw).2))
          = some { s with
              que := requests, server_alive := true
              workers := fun _ => .appending draw text } := by
        simp [State.step, State.setWorker, hupdate, htext]
      have happend : ({ s with
            que := requests, workers := fun _ => .appending draw text, server_alive := true } :
          State 1 _ _).step (noContents ∘ requestText) (.append 0)
          = some { s with
              que := requests, workers := fun _ => .getting, server_alive := true
              response := s.response ++ [⟨draw, text⟩] } := by
        simp [State.step, State.setWorker, hupdate]
      rw [oneByOne, run_cons hget, run_cons hpost, run_cons happend, steps_cons hget,
        steps_cons hpost, steps_cons happend]
      obtain ⟨hsteps, hrun⟩ := ih hserver { s with
        que := requests, workers := fun _ => .getting, server_alive := true
        response := s.response ++ [⟨draw, text⟩] } rfl rfl
      refine ⟨⟨trivial, fun draw' hposting _ => ?_, trivial, hsteps⟩, hrun⟩
      obtain rfl := Worker.posting.inj hposting
      exact hreply

end Exists

/-- The status code and the text of the reply to a result. -/
def repliedText (whole : List Char) : Option (Response Char) → ℕ × List Char
  | some response => (200, winnerText whole response)
  | none => (204, [])

theorem repliedText_answer (whole : List Char) (result : Option (Response Char)) :
    ((repliedText whole result).1 = 200 ∨ (repliedText whole result).1 = 204)
      ∧ ⟨(repliedText whole result).1, utf8 (repliedText whole result).2⟩
        = Reply.answer (utf8 ∘ winnerText whole) result := by
  cases result with
  | none => exact ⟨.inr rfl, rfl⟩
  | some response => exact ⟨.inl rfl, rfl⟩

/-- **An evaluation can be finished**, by one worker already, and so there is a file. -/
theorem evaluates_exists {parse scan : List UInt8 → Option (Json UInt8)}
    {loads : List UInt8 → Option (Json Char)} {draws : List AdvertiserDraw}
    {requests : List RequestDraw}
    (hdecodes : ∀ draw ∈ requests, ∀ document, JsonText.read (requestText draw) = some document →
      Decodes parse scan loads (utf8 (requestText draw)) document)
    {lang : Language}
    (hsees : ∀ draw ∈ requests, lang.Sees (createDatabase draws) draw.requestData) :
    ∃ file, Evaluates (lang.Replies parse scan loads (createDatabase draws)) requests file := by
  obtain ⟨result, hresults⟩ := exists_results hdecodes
  have hserver : ∀ draw ∈ requests, ((repliedText lang.whole (result draw)).1 = 200
        ∨ (repliedText lang.whole (result draw)).1 = 204)
      ∧ lang.Replies parse scan loads (createDatabase draws) (utf8 (requestText draw))
        ⟨(repliedText lang.whole (result draw)).1,
          utf8 (repliedText lang.whole (result draw)).2⟩ := by
    intro draw hdraw
    rw [replies_iff lang (hresults.answered draw hdraw) (hresults.plain draw hdraw)
      (hsees draw hdraw)]
    exact repliedText_answer lang.whole (result draw)
  obtain ⟨hsteps, s, hrun, hdone⟩ := oneByOne_finishes hserver (.start requests) rfl rfl
  exact ⟨_, 1, _, s, Nat.one_pos, hsteps, hrun, hdone, rfl⟩

/-! ## An advertiser and a request -/

theorem decodes_oneRequest (document : Json Char)
    (hread : JsonText.read (requestText oneRequest) = some document) :
    let body := utf8 (requestText oneRequest)
    let document' : Json Char := .obj (requestMembers oneRequest)
    Decodes (parseOnly body (document'.mapText utf8)) (parseOnly body (document'.mapText utf8))
      (parseOnly body document') body document := by
  obtain rfl := Option.some.inj ((reads_requestText oneRequest).read.symm.trans hread)
  exact decodes_parseOnly _ _

/-- Go and C++ on the one ad, whose price is whole. -/
theorem sameFile_iff_oneRequest :
    let body := utf8 (requestText oneRequest)
    let document : Json Char := .obj (requestMembers oneRequest)
    let parse := parseOnly body (document.mapText utf8)
    let loads := parseOnly body document
    let db := createDatabase [oneAdvertiser]
    ∃ file file', Evaluates (Language.Replies parse parse loads db .golang) [oneRequest] file
      ∧ Evaluates (Language.Replies parse parse loads db .cpp) [oneRequest] file'
      ∧ (file = file' ↔ ∀ response, IsResult db oneRequest.requestData (some response)
        → ¬10 ^ 4 ∣ response.price) := by
  intro body document parse loads db
  have hdecodes : ∀ draw ∈ [oneRequest], ∀ document,
      JsonText.read (requestText draw) = some document →
        Decodes parse parse loads (utf8 (requestText draw)) document :=
    List.forall_mem_singleton.mpr decodes_oneRequest
  have hgo : ∀ draw ∈ [oneRequest], Language.golang.Sees db draw.requestData :=
    fun _ _ h => absurd h (by decide)
  have hcpp : ∀ draw ∈ [oneRequest], Language.cpp.Sees db draw.requestData :=
    fun _ _ h => absurd h (by decide)
  obtain ⟨file, hfile⟩ := evaluates_exists hdecodes hgo
  obtain ⟨file', hfile'⟩ := evaluates_exists hdecodes hcpp
  refine ⟨file, file', hfile, hfile', (sameFile_iff hdecodes hgo hcpp hfile hfile').trans ?_⟩
  rw [or_iff_right (by decide)]
  exact List.forall_mem_singleton

theorem evaluation_file_oneRequest :
    let body := utf8 (requestText oneRequest)
    let document : Json Char := .obj (requestMembers oneRequest)
    let parse := parseOnly body (document.mapText utf8)
    let loads := parseOnly body document
    let db := createDatabase [oneAdvertiser]
    ∃ file, Evaluates (Language.Replies parse parse loads db .cpp) [oneRequest] file
      ∧ ∃ result : RequestDraw → Option (Response Char),
        (∀ draw ∈ [oneRequest], IsResult db draw.requestData (result draw))
          ∧ file = resultFile ([oneRequest].map fun draw =>
            answerText Language.cpp.whole draw (result draw)) := by
  intro body document parse loads db
  have hdecodes : ∀ draw ∈ [oneRequest], ∀ document,
      JsonText.read (requestText draw) = some document →
        Decodes parse parse loads (utf8 (requestText draw)) document :=
    List.forall_mem_singleton.mpr decodes_oneRequest
  have hcpp : ∀ draw ∈ [oneRequest], Language.cpp.Sees db draw.requestData :=
    fun _ _ h => absurd h (by decide)
  obtain ⟨file, hfile⟩ := evaluates_exists hdecodes hcpp
  exact ⟨file, hfile, evaluation_file hdecodes hcpp hfile⟩

end AuctionWorker
