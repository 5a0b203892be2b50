import Layad.Forwarding
import Layad.Json.Truncated
import Layad.Replies

namespace Layad

/-!
# The worker's frames on the way to the daemon

`emit` writes a frame as one line (`Worker.lineBytes`).  A daemon whose decoder takes only
JSON reads a complete line as the frame that was emitted (`Worker.fromStr_line`) and a line
that was cut off as nothing (`Worker.fromStr_truncated`).  What the worker makes of a request
(`Worker.Reaction`) has the same meaning in its frame and in the reply the daemon files
(`Worker.parseReply_frame`).
-/

/-- The decoder takes only JSON texts, and reads them as what they say. -/
def Host.ReadsText (host : Host) : Prop :=
  ∀ text value, host.fromStr text = .ok value →
    ∃ d : Document, Padded d.Spells (utf8 text) ∧ d.toJson host.f64Text = some value

/-- `json.loads` reads only texts whose brackets are in order outside the strings. -/
def PyHost.Nests (py : PyHost) : Prop :=
  ∀ (cs : List Char) (v : PyVal), py.loads (cs.map PyStr.ofChar) = .ok v →
    Nested (cs.flatMap String.utf8EncodeChar)

namespace Worker

/-! ### The line of a frame -/

/-- The line of a frame, without its line break. -/
def lineText (frame : PyVal) : String := frame.dumps.text

/-- The bytes a frame is emitted as. -/
def lineBytes (frame : PyVal) : List UInt8 := utf8 (lineText frame) ++ [newline]

section Line

variable {frame : PyVal} {host : Host} {f64Text : String → Option String}

/-- The bytes of a line are those Python has printed. -/
theorem utf8_lineText (frame : PyVal) : utf8 (lineText frame) = frame.dumps.bytes :=
  PyStr.utf8_text _

/-- What is emitted is the line. -/
theorem eq_lineBytes {py : PyHost} {bytes : List UInt8} (h : emit py frame = some bytes) :
    bytes = lineBytes frame := by
  obtain ⟨hdumps, hencodable⟩ := (isSome_emit py frame).mp (by rw [h]; rfl)
  have hline := PyStr.encodable_append.mpr
    ⟨(PyVal.encodable_dumps _).mpr hencodable, PyStr.encodable_ofString "\n"⟩
  rw [emit, hdumps, if_neg Bool.false_ne_true, PyStr.encode_eq hline, PyStr.bytes_append,
    PyStr.bytes_ofString] at h
  rw [← Option.some.inj h, lineBytes, utf8_lineText]
  rfl

/-- No byte of a line is a control character. -/
theorem le_of_mem_lineText (hnum : frame.Every (PyVal.NumberLeaf f64Text)) :
    ∀ b ∈ utf8 (lineText frame), 0x20 ≤ b := by
  intro b hb
  rw [utf8_lineText] at hb
  exact (PyVal.printable_dumps _ hnum).le_of_mem hb

/-- There is no newline in a line. -/
theorem newline_notMem (hnum : frame.Every (PyVal.NumberLeaf f64Text)) :
    newline ∉ utf8 (lineText frame) :=
  fun hmem => absurd (le_of_mem_lineText hnum _ hmem) (by decide)

/-- A line that the decoder takes is the text of the frame. -/
theorem fromStr_line (hjson : host.ReadsText)
    (hnum : frame.Every (PyVal.NumberLeaf host.f64Text)) {value : Json}
    (h : host.fromStr (lineText frame) = .ok value) :
    frame.document.toJson host.f64Text = some value := by
  obtain ⟨d, hd, hvalue⟩ := hjson _ _ h
  rw [utf8_lineText] at hd
  have hfin := PyVal.finite_of_spells hnum hd
  rwa [Document.eq_of_spells hd (.bare (PyVal.spells_dumps _ hfin hnum))] at hvalue

/-- The decoder takes no line that was cut off. -/
theorem fromStr_truncated (hjson : host.ReadsText) {members : List (PyStr × PyVal)}
    (hnum : (PyVal.dict members).Every (PyVal.NumberLeaf host.f64Text)) {text : String}
    (hbegins : utf8 text <+: utf8 (lineText (.dict members)))
    (hne : utf8 text ≠ utf8 (lineText (.dict members))) (value : Json) :
    host.fromStr text ≠ .ok value := by
  intro h
  obtain ⟨d, hd, -⟩ := hjson _ _ h
  rw [utf8_lineText] at hbegins hne
  exact PyVal.not_spells_of_truncated hnum hbegins hne d hd

end Line

/-! ### The members of a frame -/

variable {host : Host} {f64Text : String → Option String}

/-- The members a dict with constant keys is written with. -/
def documents (members : List (String × PyVal)) : List (String × Document) :=
  members.map fun m => (m.1, m.2.document)

/-- A dict with text keys is an object. -/
theorem document_dict : ∀ members : List (String × PyVal),
    (dict members).document = .obj (documents members)
  | [] => rfl
  | m :: rest => by
    have ih := document_dict rest
    rw [dict, PyVal.document, Document.obj.injEq] at ih ⊢
    rw [List.map_cons, PyVal.documentMembers, ih, PyStr.text_ofString]
    rfl

/-- A member of a dict is a member of the object. -/
theorem lookup_documents (key : String) : ∀ members : List (String × PyVal),
    (documents members).lookup key = (members.lookup key).map PyVal.document
  | [] => rfl
  | m :: rest => by
    have ih := lookup_documents key rest
    rw [documents] at ih ⊢
    rw [List.map_cons, Json.lookup_cons, ih, Json.lookup_cons]
    split <;> rfl

/-- A member of a value read is what the member of the text is read as. -/
theorem lookup_membersToJson : ∀ {documents : List (String × Document)}
    {members : List (String × Json)}, Document.membersToJson f64Text documents = some members →
    ∀ key, members.lookup key = (documents.lookup key).bind (·.toJson f64Text)
  | [], _, h, key => by
    cases h
    rfl
  | (k, d) :: rest, _, h, key => by
    obtain ⟨value, others, hvalue, hothers, rfl⟩ := Document.membersToJson_cons.mp h
    rw [Json.lookup_cons, Json.lookup_cons, lookup_membersToJson hothers key]
    split
    · rw [Option.bind_some, hvalue]
    · rfl

/-- Reading the members keeps their keys. -/
theorem keys_membersToJson {documents : List (String × Document)}
    {members : List (String × Json)}
    (h : Document.membersToJson f64Text documents = some members) :
    Json.keys members = Json.keys documents := by
  induction documents generalizing members with
  | nil =>
    cases h
    rfl
  | cons m rest ih =>
    obtain ⟨value, others, -, hothers, rfl⟩ := Document.membersToJson_cons.mp h
    have := ih hothers
    rw [Json.keys] at this ⊢
    rw [List.map_cons, this]
    rfl

/-- What the daemon finds in a dict with constant keys. -/
theorem get_dict {members : List (String × PyVal)} (hkeys : (Json.keys members).Nodup)
    {value : Json} (h : (dict members).document.toJson f64Text = some value) (key : String) :
    value.get key = (members.lookup key).bind (·.document.toJson f64Text) := by
  rw [document_dict, Document.toJson, Option.map_eq_some_iff] at h
  obtain ⟨jsons, hjsons, rfl⟩ := h
  have hnodup : (Json.keys jsons).Nodup := by
    rw [keys_membersToJson hjsons, Json.keys, documents, List.map_map]
    exact hkeys
  rw [Json.get, Json.lookup_toMap hnodup, lookup_membersToJson hjsons, lookup_documents,
    Option.bind_map]
  rfl

/-! ### What the worker makes of a request -/

/-- What becomes of a request that the worker has read. -/
inductive Reaction where
  | result (value : PyVal)
  | rejected (message : PyStr)
  | failed
  /-- An exception leaves `serve`. -/
  | raised

/-- Validate the parameters and call the agent. -/
def react {σ : Type} (py : PyHost) (agent : Agent σ) (s : σ) (params : PyVal) : Reaction × σ :=
  match validateParams py.repr params with
  | .error none => (.raised, s)
  | .error (some err) => (.rejected err, s)
  | .ok (state, questions) =>
    match agent.predict s state questions with
    | (.ok value, t) => (.result value, t)
    | (.error err, t) =>
      (if err.requestScoped then err.text.elim .raised .rejected else .failed, t)

namespace Reaction

/-- What is said of a failure the agent does not answer for. -/
def failedText : String := "inference failed, see worker stderr"

/-- The frame that tells it, if one does. -/
def frame (requestId : PyVal) : Reaction → Option PyVal
  | .result value => some (ok requestId value)
  | .rejected message => some (reject requestId "invalid_request" message)
  | .failed => some (fatal "inference_failed" (.ofString failedText) requestId)
  | .raised => none

/-- How the loop of `serve` goes on. -/
def pass {σ : Type} (requestId : PyVal) (r : Reaction) (agent : σ) : Pass σ :=
  match r with
  | .result value => .answer (ok requestId value) agent
  | .rejected message => .answer (reject requestId "invalid_request" message) agent
  | .failed => .last (fatal "inference_failed" (.ofString failedText) requestId) agent
  | .raised => .raised agent

/-- The reply the daemon files; nothing for a result that is no JSON, or without a frame. -/
def reply (f64Text : String → Option String) : Reaction → Option Reply
  | .result value => (value.document.toJson f64Text).map .ok
  | .rejected message => some (.err ⟨some "invalid_request", some message.text, false⟩)
  | .failed => some (.err ⟨some "inference_failed", some failedText, true⟩)
  | .raised => none

/-- Its numbers are those of the result. -/
def Numeral (f64Text : String → Option String) : Reaction → Prop
  | .result value => value.Every (PyVal.NumberLeaf f64Text)
  | _ => True

/-- So are those of the frame. -/
theorem every_frame {r : Reaction} (h : r.Numeral f64Text) {id : String} {frame : PyVal}
    (hframe : r.frame (.text id) = some frame) : frame.Every (PyVal.NumberLeaf f64Text) := by
  cases r with
  | result value =>
    cases hframe
    exact (every_ok trivial trivial).mpr h
  | rejected message =>
    cases hframe
    exact ⟨trivial, trivial, ⟨trivial, trivial, trivial⟩, trivial⟩
  | failed =>
    cases hframe
    exact ⟨trivial, trivial, trivial, ⟨trivial, trivial, trivial⟩, trivial⟩
  | raised => cases hframe

end Reaction

/-- A predict message is answered by `react`. -/
theorem serveMessage_predict {σ : Type} {py : PyHost} {agent : Agent σ} {s : σ}
    {message : List (PyStr × PyVal)} (h : PyVal.get message "method" = .text "predict") :
    serveMessage py agent s message =
      (react py agent s (PyVal.get message "params")).1.pass (PyVal.get message "id")
        (react py agent s (PyVal.get message "params")).2 := by
  have hshutdown : (PyVal.text "predict").isText "shutdown" = false := by decide
  have hpredict : (PyVal.text "predict").isText "predict" = true := by decide
  rw [serveMessage, h, if_neg (by simp [hshutdown]), if_neg (by simp [hpredict]), react]
  cases validateParams py.repr (PyVal.get message "params") with
  | error err => cases err <;> simp [Reaction.pass]
  | ok params =>
    obtain ⟨state, questions⟩ := params
    dsimp only
    rcases agent.predict s state questions with ⟨err | value, t⟩
    · cases hscope : err.requestScoped with
      | true => cases htext : err.text <;> simp [Reaction.pass, hscope, htext]
      | false => simp [Reaction.pass, hscope, Reaction.failedText]
    · simp [Reaction.pass]

/-- The frame of a request is within the limit of the worker, and `json.loads` returns on it. -/
structure Legible (py : PyHost) (id : String) (params : Json) : Prop where
  fits : (Json.compact (Sup.predictFrame id params)).length ≤ maxInputBytes
  loads : (py.loads ((Json.text (Sup.predictFrame id params)).map PyStr.ofChar)).toOption.isSome =
    true

/-- What the worker makes of the text of a request. -/
theorem serveLine_request {py : PyHost} {parseFloat : String → PyFloat}
    (hpy : py.ReadsJson parseFloat) {params : Json} (h : params.WellFormed) {id : String}
    {raw : PyStr} (hstrip : raw.strip = (Json.text (Sup.predictFrame id params)).map PyStr.ofChar)
    {σ : Type} (agent : Agent σ) (s : σ) :
    serveLine py agent s raw = (react py agent s (params.toPy parseFloat)).1.pass (.text id)
        (react py agent s (params.toPy parseFloat)).2 ∨
      (¬ Legible py id params ∧
        ∃ code message, serveLine py agent s raw = .last (fatal code message .null) s) := by
  have hwf := wellFormed_predictFrame h id
  have hlen : raw.strip.encodeReplace = Json.compact (Sup.predictFrame id params) := by
    rw [hstrip, PyStr.encodeReplace_map, Json.compact_eq]
  have hblank : raw.strip.isEmpty = false := by
    rw [hstrip]
    rfl
  rw [serveLine]
  simp only [hblank, Bool.false_eq_true, if_false]
  -- too long
  by_cases hfits : maxInputBytes < raw.strip.encodeReplace.length
  · rw [if_pos hfits]
    exact .inr ⟨fun hl => absurd hl.fits (by rw [hlen] at hfits; exact Nat.not_le.mpr hfits),
      _, _, rfl⟩
  rw [if_neg hfits]
  cases hloads : py.loads raw.strip with
  -- not read
  | error err =>
    refine .inr ⟨fun hl => ?_, _, _, rfl⟩
    have hsome := hl.loads
    rw [← hstrip, hloads] at hsome
    cases hsome
  -- what is read is the frame, and its params are the request's
  | ok v =>
    have hspells : Padded (Document.ofJson (Sup.predictFrame id params)).Spells
        ((Json.text (Sup.predictFrame id params)).flatMap String.utf8EncodeChar) := by
      rw [← Json.compact_eq]
      exact .bare (Document.spells_compact hwf)
    have hread : v = .dict (Json.toPyMembers parseFloat
        [("id", .str id), ("method", .str "predict"), ("params", params)]) := by
      rw [hpy _ _ v hspells (hstrip ▸ hloads), Document.toPy_ofJson hwf]
      rfl
    subst hread
    dsimp only
    rw [serveMessage_predict (by rw [Json.get_toPyMembers]; rfl), Json.get_toPyMembers,
      Json.get_toPyMembers]
    exact .inl rfl

/-- **What the worker makes of the line of a request**: it reacts to the parameters, or stops
    with a frame that names no request. -/
theorem serveLine_predictFrame {host : Host} (hvec : host.toVec = Json.compact) {py : PyHost}
    {parseFloat : String → PyFloat} (hpy : py.ReadsJson parseFloat) {params : Json}
    (h : params.WellFormed) (id : String) :
    ∃ raw, PyStr.decode (writeFrame host (Sup.predictFrame id params)) = some raw ∧
      ∀ {σ : Type} (agent : Agent σ) (s : σ),
        serveLine py agent s raw = (react py agent s (params.toPy parseFloat)).1.pass (.text id)
          (react py agent s (params.toPy parseFloat)).2 ∨
        (¬ Legible py id params ∧
          ∃ code message, serveLine py agent s raw = .last (fatal code message .null) s) := by
  obtain ⟨-, raw, hdec, hstrip, -⟩ := readLine_writeFrame hvec
    [("id", .str id), ("method", .str "predict"), ("params", params)]
    (wellFormed_predictFrame h id).numeric
  exact ⟨raw, hdec, serveLine_request hpy h hstrip⟩

/-- The text that bytes are decoded to. -/
theorem decode_some {bytes : List UInt8} {raw : PyStr} (h : PyStr.decode bytes = some raw) :
    ∃ cs : List Char, raw = cs.map PyStr.ofChar ∧ bytes = cs.flatMap String.utf8EncodeChar := by
  obtain ⟨text, htext, rfl⟩ := Option.map_eq_some_iff.mp h
  refine ⟨text.toList, rfl, ?_⟩
  rw [← utf8_eq]
  unfold String.fromUTF8? at htext
  split at htext
  · cases htext
    rfl
  · cases htext

/-- A text whose bytes are the beginning of another's is its beginning. -/
theorem prefix_of_flatMap : ∀ {cs ds : List Char},
    cs.flatMap String.utf8EncodeChar <+: ds.flatMap String.utf8EncodeChar → cs <+: ds
  | [], _, _ => List.nil_prefix
  | c :: cs, [], h => by
    have hlen := h.length_le
    have hpos := String.length_utf8EncodeChar c
    have := c.utf8Size_pos
    simp only [List.flatMap_cons, List.length_append, List.flatMap_nil, List.length_nil] at hlen
    omega
  | c :: cs, d :: ds, h => by
    obtain ⟨t, ht⟩ := h
    rw [List.flatMap_cons, List.flatMap_cons, List.append_assoc] at ht
    obtain ⟨rfl, hrest⟩ := utf8EncodeChar_cancel ht
    exact List.cons_prefix_cons.mpr ⟨rfl, prefix_of_flatMap ⟨t, hrest⟩⟩

/-- What `strip` leaves of a text without leading white space is its beginning. -/
theorem strip_prefix {s : PyStr} (h : s.dropWhile PyStr.isSpace = s) : s.strip <+: s := by
  rw [PyStr.strip, h, ← List.reverse_suffix, List.reverse_reverse]
  exact List.dropWhile_suffix _

/-- The text of a request without its line break. -/
theorem strip_compact {params : Json} {id : String} {raw : PyStr}
    (h : PyStr.decode (Json.compact (Sup.predictFrame id params)) = some raw) :
    raw.strip = (Json.text (Sup.predictFrame id params)).map PyStr.ofChar := by
  rw [Json.compact_eq, ← utf8_ofList, PyStr.decode_utf8, PyStr.ofString, String.toList_ofList] at h
  have := PyStr.strip_between (a := PyStr.ofChar '{') (b := PyStr.ofChar '}') (by decide)
    (by decide) ((Json.textMembers
      [("id", .str id), ("method", .str "predict"), ("params", params)]).map PyStr.ofChar)
    (t := []) (fun _ hn => absurd hn List.not_mem_nil)
  rw [← Option.some.inj h]
  simpa [Sup.predictFrame, Json.text] using this

/-- **A request that is cut off is not taken for another**: the worker stops, and the agent is
    not asked. -/
theorem serveLine_truncated {py : PyHost} (hnest : py.Nests) {params : Json}
    (h : params.WellFormed) {id : String} {bytes : List UInt8} {raw : PyStr}
    (hdec : PyStr.decode bytes = some raw)
    (hbegins : bytes <+: Json.compact (Sup.predictFrame id params))
    (hne : bytes ≠ Json.compact (Sup.predictFrame id params)) {σ : Type} (agent : Agent σ) (s : σ) :
    serveLine py agent s raw = .skip s ∨
      ∃ code message, serveLine py agent s raw = .last (fatal code message .null) s := by
  obtain ⟨cs, rfl, rfl⟩ := decode_some hdec
  -- what `strip` leaves is cut off as well
  have hloads : (PyStr.strip (cs.map PyStr.ofChar)).isEmpty = false →
      ∀ v, py.loads (PyStr.strip (cs.map PyStr.ofChar)) ≠ .ok v := by
    intro hblank v hv
    have hchars : cs <+: Json.text (Sup.predictFrame id params) := by
      rw [Json.compact_eq] at hbegins
      exact prefix_of_flatMap hbegins
    cases cs with
    | nil => cases hblank
    | cons c rest =>
      obtain rfl : c = '{' := by
        rw [Sup.predictFrame, Json.text] at hchars
        exact (List.cons_prefix_cons.mp hchars).1
      obtain ⟨n, hn⟩ : ∃ n, PyStr.strip (('{' :: rest).map PyStr.ofChar) =
          (('{' :: rest).take n).map PyStr.ofChar := by
        have := strip_prefix (s := ('{' :: rest).map PyStr.ofChar) (by
          rw [List.map_cons, List.dropWhile_cons_of_neg (by decide)])
        exact ⟨_, (List.prefix_iff_eq_take.mp this).trans List.map_take.symm⟩
      rw [hn] at hv hblank
      obtain ⟨mid, hmid, hmembers⟩ := Document.spells_compact (wellFormed_predictFrame h id)
      have hshort : (('{' :: rest).take n).flatMap String.utf8EncodeChar <+:
          ('{' :: rest).flatMap String.utf8EncodeChar :=
        (List.take_prefix n _).flatMap _
      rw [hmid] at hbegins hne
      refine (Document.SpellsMembers.nested _ hmembers).not_nested rfl
        (hshort.trans hbegins) (fun he => ?_) ?_ (hnest _ v hv)
      · rw [he] at hshort
        exact hne (hbegins.eq_of_length_le hshort.length_le)
      · cases n with
        | zero => cases hblank
        | succ n => exact List.cons_ne_nil _ _
  unfold serveLine
  dsimp only
  split
  · exact .inl rfl
  rename_i hblank
  split
  · exact .inr ⟨_, _, rfl⟩
  split
  · exact .inr ⟨_, _, rfl⟩
  · exact absurd ‹_› (hloads (Bool.eq_false_iff.mpr hblank) _)
  · exact .inr ⟨_, _, rfl⟩

/-! ### Its reply -/

/-- The error object of a frame. -/
theorem fromValue_error {code : String} {message : PyStr} {value : Json}
    (h : (dict [("code", .text code), ("message", .str message)]).document.toJson f64Text =
      some value) :
    ErrorBody.fromValue value = some ⟨some code, some message.text, false⟩ := by
  have hkeys : Json.toMap [("code", .str code), ("message", .str message.text)] =
      [("code", .str code), ("message", .str message.text)] := by
    have hlt : ¬ "message" < "code" := by decide
    have hne : "message" ≠ "code" := by decide
    simp [Json.toMap, Json.insert, hlt, hne]
  have hvalue : value = .obj [("code", .str code), ("message", .str message.text)] := by
    rw [document_dict] at h
    simp only [documents, List.map_cons, List.map_nil, PyVal.text, PyVal.document,
      Document.toJson, Document.membersToJson, PyStr.text_ofString,
      Option.bind_eq_bind, Option.bind_some, Option.map_some, Option.some.injEq] at h
    rw [← h, hkeys]
  subst hvalue
  rfl

/-- The reply to a result is parsed as one. -/
theorem parseReply_result {id : String} {v : PyVal} {value : Json}
    (h : (ok (.text id) v).document.toJson host.f64Text = some value) :
    ∃ body, (Reaction.result v).reply host.f64Text = some body ∧
      parseReply host value = .ok ⟨id, body⟩ := by
  rw [document_ok] at h
  cases hv : v.document.toJson host.f64Text with
  | none => simp [okDocument, Document.toJson, Document.membersToJson, hv] at h
  | some json => exact ⟨.ok json, by rw [Reaction.reply, hv]; rfl, parseReply_okDocument h hv⟩

/-- A reply that is an error object, with the further members `fatal`. -/
theorem parseReply_error (fatal : List (String × PyVal)) {id code : String} {message : PyStr}
    {value : Json} {b : Bool} (hfatal : fatal = [] ∧ b = false ∨
      fatal = [("fatal", .bool true)] ∧ b = true)
    (h : (dict ([("id", .text id), ("ok", .bool false)] ++ fatal ++
      [("error", dict [("code", .text code), ("message", .str message)])])).document.toJson
        host.f64Text = some value) :
    parseReply host value = .ok ⟨id, .err ⟨some code, some message.text, b⟩⟩ := by
  have hkeys : (Json.keys ([("id", .text id), ("ok", .bool false)] ++ fatal ++
      [("error", dict [("code", .text code), ("message", .str message)])])).Nodup := by
    rcases hfatal with ⟨rfl, -⟩ | ⟨rfl, -⟩ <;> simp [Json.keys]
  have hget := get_dict hkeys h
  -- each field of the frame is found under its key
  have hid : (value.get "id").bind Json.asStr = some id := by
    rw [hget]
    simp [PyVal.text, PyVal.document, Document.toJson, PyStr.text_ofString, Json.asStr]
  have hok : (value.get "ok").bind Json.asBool = some false := by
    rw [hget]
    simp [PyVal.document, Document.toJson, Json.asBool, Json.lookup_cons]
  have hfatal' : ((value.get "fatal").bind Json.asBool).getD false = b := by
    rw [hget]
    rcases hfatal with ⟨rfl, rfl⟩ | ⟨rfl, rfl⟩ <;>
      simp [PyVal.document, Document.toJson, Json.asBool, Json.lookup_cons]
  obtain ⟨error, herror, hbody⟩ : ∃ error, value.get "error" = some error ∧
      ErrorBody.fromValue error = some ⟨some code, some message.text, false⟩ := by
    have herror := hget "error"
    cases he : (dict [("code", .text code), ("message", .str message)]).document.toJson
        host.f64Text with
    | none => simp [document_dict, documents, PyVal.text, PyVal.document, Document.toJson,
        Document.membersToJson] at he
    | some error =>
      refine ⟨error, ?_, fromValue_error he⟩
      rw [herror, ← he]
      rcases hfatal with ⟨rfl, -⟩ | ⟨rfl, -⟩ <;> simp [Json.lookup_cons]
  simp only [parseReply, hid, hok, herror, hbody, hfatal', Bool.false_or]

/-- **A reply says what the worker made of the request**, to whom its id says. -/
theorem parseReply_frame {r : Reaction} {id : String} {frame : PyVal} {value : Json}
    (hframe : r.frame (.text id) = some frame)
    (h : frame.document.toJson host.f64Text = some value) :
    ∃ body, r.reply host.f64Text = some body ∧ parseReply host value = .ok ⟨id, body⟩ := by
  cases r with
  | result v =>
    cases hframe
    exact parseReply_result h
  | rejected message =>
    cases hframe
    exact ⟨_, rfl, parseReply_error [] (.inl ⟨rfl, rfl⟩) h⟩
  | failed =>
    cases hframe
    have hreply := parseReply_error [("fatal", .bool true)] (.inr ⟨rfl, rfl⟩) h
    rw [PyStr.text_ofString] at hreply
    exact ⟨_, rfl, hreply⟩
  | raised => cases hframe

/-- A frame without an id is no reply. -/
theorem parseReply_null {members : List (String × PyVal)}
    (hkeys : (Json.keys (("id", .null) :: members)).Nodup) {value : Json}
    (h : (dict (("id", .null) :: members)).document.toJson f64Text = some value) :
    parseReply host value = .error "reply frame has no string id" := by
  have hid := get_dict hkeys h "id"
  rw [List.lookup_cons_self, Option.bind_some] at hid
  have hnone : (value.get "id").bind Json.asStr = none := by
    rw [hid]
    rfl
  rw [parseReply, hnone]

end Worker

end Layad
