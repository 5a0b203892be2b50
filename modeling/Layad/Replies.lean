import Layad.Json.Map
import Layad.Python.Dumps
import Layad.Worker.Protocol

namespace Layad

/-!
# From the result of the agent to the reply of the daemon

The worker writes the result of a prediction as one line, which the daemon decodes.  The two
agree on the trees an agent may return, except on floats that are no JSON numbers and on trees
that leave no room in `serde_json`'s limit for the level the frame around the result adds
(`Worker.transmitted_iff`).
-/

namespace Document

mutual

/-- How deep the containers of a document are nested. -/
def depth : Document → Nat
  | .null | .bool _ | .int _ | .negZero | .real _ | .str _ => 0
  | .arr items => depthItems items + 1
  | .obj members => depthMembers members + 1

/-- The deepest item of an array. -/
def depthItems : List Document → Nat
  | [] => 0
  | item :: rest => max item.depth (depthItems rest)

/-- The deepest member of an object. -/
def depthMembers : List (String × Document) → Nat
  | [] => 0
  | (_, value) :: rest => max value.depth (depthMembers rest)

end

end Document

/-- How deep `serde_json` follows containers: its limit of 128 is one that is not reached. -/
def nestingLimit : Nat := 127

/-- What `serde_json::from_str` makes of a text: it reads the texts of the grammar that are not
    nested too deeply, with numbers in range, and no other. -/
def Host.Reads (host : Host) (text : String) : Prop :=
  ∀ value, host.fromStr text = .ok value ↔
    ∃ d : Document, Padded d.Spells (utf8 text) ∧ d.depth ≤ nestingLimit ∧
      d.toJson host.f64Text = some value

namespace Worker

/-- The line of an ok frame, without its line break. -/
def okLine (id : String) (result : PyVal) : String := (ok (.text id) result).dumps.text

/-- The reply arrives: `emit` writes one line of JSON, nested no deeper than the limit if the
    result is not, and the daemon decodes it to the id and the result. -/
structure Transmitted (py : PyHost) (host : Host) (id : String) (result : PyVal) : Prop where
  written : emit py (ok (.text id) result) = some (utf8 (okLine id result) ++ [newline])
  line : newline ∉ utf8 (okLine id result)
  frame : finishFrame host (utf8 (okLine id result) ++ [newline]) =
    .ok (.line (okLine id result))
  json : ∃ d : Document, Padded d.Spells (utf8 (okLine id result)) ∧
    (result.document.depth ≤ nestingLimit → d.depth ≤ nestingLimit)
  decoded : ∃ value json,
    host.fromStr (okLine id result) = .ok value ∧ parseReply host value = .ok ⟨id, .ok json⟩ ∧
      result.document.toJson host.f64Text = some json

/-! ### The frame of a result -/

/-- The document of an ok frame. -/
def okDocument (id : String) (result : PyVal) : Document :=
  .obj [("id", .str id), ("ok", .bool true), ("result", result.document)]

/-- The reply to a result, as a document. -/
theorem document_ok (id : String) (result : PyVal) :
    (ok (.text id) result).document = okDocument id result := by
  simp [ok, dict, okDocument, PyVal.text, PyVal.document, PyVal.documentMembers,
    PyStr.text_ofString]

/-- It is nested one deeper than the result. -/
theorem depth_okDocument (id : String) (result : PyVal) :
    (okDocument id result).depth = result.document.depth + 1 := by
  simp [okDocument, Document.depth, Document.depthMembers]

/-- What holds of the result holds of the reply. -/
theorem every_ok {p : PyVal → Prop} {id : String} {result : PyVal}
    (hid : p (.text id)) (hok : p (.bool true)) :
    (ok (.text id) result).Every p ↔ result.Every p := by
  simp only [ok, dict, List.map_cons, List.map_nil, PyVal.Every, PyVal.EveryMember, PyVal.text,
    and_true]
  exact ⟨fun h => h.2.2, fun h => ⟨hid, hok, h⟩⟩

/-- The reply is finite if the result is. -/
theorem finite_ok {id : String} {result : PyVal} :
    (ok (.text id) result).Finite ↔ result.Finite := every_ok trivial trivial

variable {py : PyHost} {host : Host} {id : String} {result : PyVal}

/-- What the daemon makes of the frame. -/
theorem parseReply_okDocument {value json : Json}
    (hvalue : (okDocument id result).toJson host.f64Text = some value)
    (hjson : result.document.toJson host.f64Text = some json) :
    parseReply host value = .ok ⟨id, .ok json⟩ := by
  have hmembers : value = .obj (Json.toMap [("id", .str id), ("ok", .bool true),
      ("result", json)]) := by
    simpa [okDocument, Document.toJson, Document.membersToJson, hjson, eq_comm] using hvalue
  have hget : ∀ key, value.get key =
      [("id", Json.str id), ("ok", .bool true), ("result", json)].lookup key := by
    intro key
    rw [hmembers, Json.get, Json.lookup_toMap]
    simp [Json.keys]
  have hid : (value.get "id").bind Json.asStr = some id := by
    rw [hget]
    rfl
  have hok : (value.get "ok").bind Json.asBool = some true := by
    rw [hget]
    rfl
  have hresult : value.get "result" = some json := by
    rw [hget]
    rfl
  simp only [parseReply, hid, hok, hresult]

/-! ### The line -/

/-- The bytes of the reply's line. -/
theorem utf8_okLine : utf8 (okLine id result) = (ok (.text id) result).dumps.bytes :=
  PyStr.utf8_text _

/-- Its numbers are those of the result. -/
theorem numbers_ok (h : result.Returnable host.f64Text) :
    (ok (.text id) result).Every (PyVal.NumberLeaf host.f64Text) :=
  (every_ok trivial trivial).mpr h.numbers

/-- No byte of the line is a control character. -/
theorem le_of_mem_okLine (h : result.Returnable host.f64Text) :
    ∀ b ∈ utf8 (okLine id result), 0x20 ≤ b := by
  intro b hb
  rw [utf8_okLine] at hb
  exact (PyVal.printable_dumps _ (numbers_ok h)).le_of_mem hb

/-- The reply is written as its line, if `json.dumps` returns. -/
theorem emit_ok (hdumps : py.dumpsRaises (ok (.text id) result) = false)
    (h : result.Returnable host.f64Text) :
    emit py (ok (.text id) result) = some (utf8 (okLine id result) ++ [newline]) := by
  have hencodable : (ok (.text id) result).Encodable :=
    encodable_ok.mpr ⟨PyStr.encodable_ofString id, h.strings⟩
  have hline := PyStr.encodable_append.mpr
    ⟨(PyVal.encodable_dumps _).mpr hencodable, PyStr.encodable_ofString "\n"⟩
  rw [emit, hdumps, if_neg Bool.false_ne_true, PyStr.encode_eq hline, PyStr.bytes_append,
    PyStr.bytes_ofString, utf8_okLine]
  rfl

/-- A line without control characters is taken as it is. -/
theorem finishFrame_line {text : String} (h : ∀ b ∈ utf8 text, 0x20 ≤ b) :
    finishFrame host (utf8 text ++ [newline]) = .ok (.line text) := by
  have hnewline : popIf newline (utf8 text ++ [newline]) = utf8 text := by
    rw [popIf, if_pos List.getLast?_concat, List.dropLast_concat]
  have hreturn : popIf carriageReturn (utf8 text) = utf8 text := by
    refine if_neg fun hlast => ?_
    exact absurd (h _ (List.mem_of_getLast? hlast)) (by decide)
  have hbytes : (⟨(utf8 text).toArray⟩ : ByteArray) = text.toByteArray := by simp [utf8]
  rw [finishFrame, hnewline, hreturn, hbytes, String.fromUTF8?, dif_pos text.isValidUTF8]
  rfl

/-- The line is the text of the frame's document if the result is finite, and of none if it is
    not. -/
theorem spells_okLine (h : result.Returnable host.f64Text) (hfin : result.Finite) :
    (okDocument id result).Spells (utf8 (okLine id result)) := by
  rw [utf8_okLine, ← document_ok]
  exact PyVal.spells_dumps _ (finite_ok.mpr hfin) (numbers_ok h)

/-- What the line says, if it is JSON. -/
theorem eq_okDocument (h : result.Returnable host.f64Text) {d : Document}
    (hd : Padded d.Spells (utf8 (okLine id result))) :
    result.Finite ∧ d = okDocument id result := by
  have hfin : result.Finite := by
    rw [utf8_okLine] at hd
    exact finite_ok.mp (PyVal.finite_of_spells (numbers_ok h) hd)
  exact ⟨hfin, Document.eq_of_spells hd (.bare (spells_okLine h hfin))⟩

/-! ### The reply -/

/-- The daemon decodes the line just if the floats are finite and the frame, a level deeper than
    the result, is within the limit. -/
theorem decoded_iff (hserde : host.Reads (okLine id result))
    (h : result.Returnable host.f64Text) :
    (∃ value json, host.fromStr (okLine id result) = .ok value ∧
        parseReply host value = .ok ⟨id, .ok json⟩ ∧
        result.document.toJson host.f64Text = some json) ↔
      result.Finite ∧ result.document.depth < nestingLimit := by
  constructor
  · rintro ⟨value, json, hread, -, -⟩
    obtain ⟨d, hd, hdepth, -⟩ := (hserde value).mp hread
    obtain ⟨hfin, rfl⟩ := eq_okDocument h hd
    rw [depth_okDocument] at hdepth
    exact ⟨hfin, hdepth⟩
  · rintro ⟨hfin, hdepth⟩
    have hframe := PyVal.isSome_toJson (ok (.text id) result) (finite_ok.mpr hfin) (numbers_ok h)
    rw [document_ok] at hframe
    obtain ⟨value, hvalue⟩ := Option.isSome_iff_exists.mp hframe
    obtain ⟨json, hjson⟩ :=
      Option.isSome_iff_exists.mp (PyVal.isSome_toJson result hfin h.numbers)
    have hlimit : (okDocument id result).depth ≤ nestingLimit := by
      rw [depth_okDocument]
      exact hdepth
    have hread := (hserde value).mpr ⟨_, .bare (spells_okLine h hfin), hlimit, hvalue⟩
    exact ⟨value, json, hread, parseReply_okDocument hvalue hjson, hjson⟩

/-- **A reply arrives just if `json.dumps` returns, its floats are finite and it leaves room for
    the level the frame adds.** -/
theorem transmitted_iff (hserde : host.Reads (okLine id result))
    (h : result.Returnable host.f64Text) :
    Transmitted py host id result ↔
      py.dumpsRaises (ok (.text id) result) = false ∧ result.Finite ∧
        result.document.depth < nestingLimit := by
  constructor
  · intro ht
    have hemit : (emit py (ok (.text id) result)).isSome = true := by rw [ht.written]; rfl
    exact ⟨((isSome_emit py _).mp hemit).1, (decoded_iff hserde h).mp ht.decoded⟩
  · rintro ⟨hdumps, hfin, hdepth⟩
    have hmem : ∀ b ∈ utf8 (okLine id result), 0x20 ≤ b := le_of_mem_okLine h
    have hframe : (okDocument id result).depth ≤ nestingLimit := by
      rw [depth_okDocument]
      exact hdepth
    exact {
      written := emit_ok hdumps h
      line := fun hbreak => absurd (hmem _ hbreak) (by decide)
      frame := finishFrame_line hmem
      json := ⟨_, .bare (spells_okLine h hfin), fun _ => hframe⟩
      decoded := (decoded_iff hserde h).mpr ⟨hfin, hdepth⟩ }

/-- A text is read as `serde_json` does if it is read as what it says. -/
theorem reads_of_fromStr {text : String} {d : Document} {value : Json}
    (hd : Padded d.Spells (utf8 text)) (hdepth : d.depth ≤ nestingLimit)
    (hvalue : d.toJson host.f64Text = some value) (hread : host.fromStr text = .ok value) :
    host.Reads text := by
  intro v
  constructor
  · intro hv
    obtain rfl := Except.ok.inj (hread.symm.trans hv)
    exact ⟨d, hd, hdepth, hvalue⟩
  · rintro ⟨d', hd', -, hv⟩
    obtain rfl := Document.eq_of_spells hd hd'
    obtain rfl := Option.some.inj (hvalue.symm.trans hv)
    exact hread

/-- A result with one score, wrapped as the model's libraries wrap numbers. -/
def scored (score : PyFloat) : PyVal := .dict [(.ofString "score", .other (.float score))]

/-- The line of a finite score. -/
def scoredLine : String := "\x7b\"id\": \"1\", \"ok\": true, \"result\": \x7b\"score\": 0.5\x7d\x7d"

/-- What it is read as. -/
def scoredReply : Json :=
  .obj [("id", .str "1"), ("ok", .bool true), ("result", .obj [("score", .float "0.5")])]

/-- Library functions that read this line, and no other text. -/
def scoredHost : Host :=
  { Replay.host with
    fromStr := fun text =>
      if text = scoredLine then .ok scoredReply
      else .error "expected value at line 1 column 1"
    f64Text := fun literal => if literal = "0.5" then some "0.5" else none }

/-- Python functions that return on such a result. -/
def scoredPyHost : PyHost where
  loads _ := .error (.ofString "Expecting value: line 1 column 1 (char 0)")
  repr _ := none
  dumpsRaises _ := false

/-- The score is printed as a real literal. -/
theorem isReal_half : IsReal "0.5" :=
  ⟨[], ['0'], ['.', '5'], [], by decide, .inl rfl,
    ⟨by decide, List.all_eq_true.mp (by decide)⟩, .inl rfl,
    .inr ⟨['5'], rfl, by decide, List.all_eq_true.mp (by decide)⟩, .inl rfl, .inl (by decide)⟩

/-- A score may be returned if its number may be. -/
theorem returnable_scored {score : PyFloat}
    (h : PyVal.NumberLeaf scoredHost.f64Text (.float score)) :
    (scored score).Returnable scoredHost.f64Text :=
  ⟨⟨PyStr.encodable_ofString "score", trivial, trivial⟩, ⟨h, trivial⟩⟩

/-- A finite score arrives. -/
theorem transmitted_iff_scored :
    Transmitted scoredPyHost scoredHost "1" (scored (.finite "0.5")) := by
  have hreturnable : (scored (.finite "0.5")).Returnable scoredHost.f64Text :=
    returnable_scored ⟨isReal_half, by decide⟩
  have hfin : (scored (.finite "0.5")).Finite := ⟨trivial, trivial⟩
  have hline : okLine "1" (scored (.finite "0.5")) = scoredLine := by decide +kernel
  have hvalue : (okDocument "1" (scored (.finite "0.5"))).toJson scoredHost.f64Text =
      some scoredReply := rfl
  have hread : scoredHost.fromStr (okLine "1" (scored (.finite "0.5"))) = .ok scoredReply := by
    simp only [scoredHost, hline, if_true]
  have hserde : scoredHost.Reads (okLine "1" (scored (.finite "0.5"))) :=
    reads_of_fromStr (.bare (spells_okLine hreturnable hfin)) (by decide) hvalue hread
  exact (transmitted_iff hserde hreturnable).mpr ⟨rfl, hfin, by decide⟩

/-- A score that is `NaN` does not arrive. -/
theorem nan_score_lost :
    (scored .nan).Returnable scoredHost.f64Text ∧
      scoredHost.Reads (okLine "1" (scored .nan)) ∧
      (scored .nan).document.depth ≤ nestingLimit ∧
      ¬ Transmitted scoredPyHost scoredHost "1" (scored .nan) := by
  have hreturnable : (scored .nan).Returnable scoredHost.f64Text := returnable_scored trivial
  have hinfinite : ¬ (scored .nan).Finite := fun hfin => hfin.1
  have hline : okLine "1" (scored .nan) ≠ scoredLine := by decide +kernel
  have hrefused : scoredHost.fromStr (okLine "1" (scored .nan)) =
      .error "expected value at line 1 column 1" := by
    simp only [scoredHost, hline, if_false]
  have hreads : scoredHost.Reads (okLine "1" (scored .nan)) := fun value => by
    refine iff_of_false (by rw [hrefused]; rintro ⟨⟩) ?_
    rintro ⟨d, hd, -⟩
    exact hinfinite (eq_okDocument hreturnable hd).1
  exact ⟨hreturnable, hreads, by decide,
    fun ht => hinfinite ((decoded_iff hreads hreturnable).mp ht.decoded).1⟩

end Worker

end Layad
