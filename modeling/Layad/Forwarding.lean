import Layad.FrameLimit
import Layad.Json.Printed
import Layad.Python.Serve
import Layad.Validation

namespace Layad

/-!
# What the model sees of a request

A body is read by `serde_json` into its own values, printed again and read by `json.loads`.
What the agent gets is the body with the members of every object in key order, and with
each number that is no 64-bit integer as the float `serde_json` has read it as
(`forwarded_document`): the default features of `serde_json` keep neither the order of
members nor big integers.
-/

/-- `json.loads` reads a JSON text as what it says, if it returns. -/
def PyHost.ReadsJson (py : PyHost) (parseFloat : String → PyFloat) : Prop :=
  ∀ (d : Document) (cs : List Char) (v : PyVal),
    Padded d.Spells (cs.flatMap String.utf8EncodeChar) →
    py.loads (cs.map PyStr.ofChar) = .ok v → v = d.toPy parseFloat

/-- The floats are printed as real literals. -/
def PrintsReals (f64Text : String → Option String) : Prop :=
  ∀ literal text, f64Text literal = some text → IsReal text

/-! ### The body -/

namespace PredictRequest

/-- Well-formed members are forwarded well formed. -/
theorem wellFormed_params {members : List (String × Json)} (h : Json.WellFormedMembers members)
    {request : PredictRequest} (ho : ofMembers members = some request) :
    request.params.WellFormed := by
  obtain ⟨hs, hq⟩ := ofMembers_some ho
  rw [Json.wellFormedMembers_iff] at h
  have hstate := h _ (List.mem_of_mem_filter (hs ▸ List.mem_singleton_self _))
  have hquestions := h _ (List.mem_of_mem_filter (hq ▸ List.mem_singleton_self _))
  have hsorted : Json.Sorted [("questions", .obj request.questions), ("state", request.state)] := by
    show ["questions", "state"].Pairwise (· < ·)
    decide
  exact ⟨hsorted, hquestions, hstate, trivial⟩

end PredictRequest

/-- Python's reading of what a body is passed on as has the state and the questions of the
    request. -/
theorem toPy_asForwarded {host : Host} (hjson : host.ReadsJson) (hreal : PrintsReals host.f64Text)
    (parseFloat : String → PyFloat) {body : List UInt8} {request : PredictRequest}
    (hreq : PredictRequest.fromSlice host body = .ok request) {d : Document}
    (hd : Padded d.Spells body) (hdist : d.Distinct) :
    request.params.WellFormed ∧ ∃ members,
      (d.asForwarded host.f64Text).toPy parseFloat = .dict members ∧
      PyVal.get members "state" = request.state.toPy parseFloat ∧
      PyVal.get members "questions" =
        .dict (Json.toPyMembers parseFloat request.questions) := by
  obtain ⟨documents, members, hdoc, hm, ho⟩ := PredictRequest.fromSlice_ok hreq
  -- the reader's document is the text's own: the grammar is unambiguous
  obtain rfl := Document.eq_of_spells hd (hjson _ _ hdoc)
  have hv : (Document.obj documents).toJson host.f64Text = some (.obj (Json.toMap members)) := by
    rw [Document.toJson, hm, Option.map_some]
  have hkeys : (Json.keys members).Nodup := by
    rw [(Document.ofJsonMembers_toJson hdist.2 hm).2]
    exact hdist.1
  -- without duplicate keys each field is found under its key, sorted or not
  obtain ⟨hs, hq⟩ := PredictRequest.ofMembers_some ho
  have hlookup : ∀ {key : String} {value : Json},
      members.filter (·.1 = key) = [(key, value)] →
      PyVal.get (Json.toPyMembers parseFloat (Json.toMap members)) key =
        value.toPy parseFloat := by
    intro key value hf
    have hmem : (key, value) ∈ members := List.mem_of_mem_filter (hf ▸ List.mem_singleton_self _)
    rw [Json.get_toPyMembers, Json.lookup_toMap hkeys, Json.lookup_of_mem hkeys hmem]
    rfl
  refine ⟨PredictRequest.wellFormed_params (Document.wellFormedMembers_toJson hreal hm) ho,
    Json.toPyMembers parseFloat (Json.toMap members), ?_, hlookup hs, hlookup hq⟩
  rw [← Document.ofJson_toJson hdist hv,
    Document.toPy_ofJson (Document.wellFormed_toJson hreal hv), Json.toPy]

/-! ### The frame -/

/-- The frame of a well-formed request is well formed. -/
theorem wellFormed_predictFrame {params : Json} (h : params.WellFormed) (id : String) :
    (Sup.predictFrame id params).WellFormed := by
  have hsorted : Json.Sorted
      [("id", .str id), ("method", .str "predict"), ("params", params)] := by
    show ["id", "method", "params"].Pairwise (· < ·)
    decide
  exact ⟨hsorted, trivial, trivial, h, trivial⟩

/-- What the worker makes of the line of a frame. -/
theorem requestOf_predictFrame {host : Host} (hvec : host.toVec = Json.compact) {py : PyHost}
    {parseFloat : String → PyFloat} (hpy : py.ReadsJson parseFloat) {params : Json}
    (h : params.WellFormed) (id : String) :
    ∃ raw, PyStr.decode (writeFrame host (Sup.predictFrame id params)) = some raw ∧
      raw.strip = (Json.text (Sup.predictFrame id params)).map PyStr.ofChar ∧
      Worker.requestOf py raw =
        if raw.strip.encodeReplace.length ≤ Worker.maxInputBytes ∧
            (py.loads raw.strip).toOption.isSome then
          (Worker.validateParams py.repr (params.toPy parseFloat)).toOption
        else none := by
  have hwf := wellFormed_predictFrame h id
  obtain ⟨-, raw, hdec, hstrip, hlen⟩ := Worker.readLine_writeFrame hvec
    [("id", .str id), ("method", .str "predict"), ("params", params)] hwf.numeric
  refine ⟨raw, hdec, hstrip, ?_⟩
  have hblank : Worker.isBlank raw = false := by
    rw [Worker.isBlank, hstrip]
    rfl
  -- the two checks before the message: the size, then `json.loads`
  by_cases hfits : raw.strip.encodeReplace.length ≤ Worker.maxInputBytes
  · have hm := Worker.messageOf_eq py hblank (Nat.not_lt.mpr hfits)
    cases hloads : py.loads raw.strip with
    | error err =>
      rw [if_neg (by simp [Except.toOption])]
      rw [hloads] at hm
      rw [Worker.requestOf, hm, Option.bind_none]
    | ok v =>
      rw [if_pos ⟨hfits, rfl⟩]
      -- what `json.loads` makes of the frame is the frame
      have hread : v = .dict (Json.toPyMembers parseFloat
          [("id", .str id), ("method", .str "predict"), ("params", params)]) := by
        have hspells : Padded (Document.ofJson (Sup.predictFrame id params)).Spells
            ((Json.text (Sup.predictFrame id params)).flatMap String.utf8EncodeChar) := by
          rw [← Json.compact_eq]
          exact .bare (Document.spells_compact hwf)
        rw [hpy _ _ v hspells (hstrip ▸ hloads), Document.toPy_ofJson hwf]
        rfl
      subst hread
      rw [hloads] at hm
      have hmethod : PyVal.get (Json.toPyMembers parseFloat [("id", .str id),
          ("method", .str "predict"), ("params", params)]) "method" = .text "predict" := by
        rw [Json.get_toPyMembers]
        rfl
      have hparams : PyVal.get (Json.toPyMembers parseFloat [("id", .str id),
          ("method", .str "predict"), ("params", params)]) "params" =
          params.toPy parseFloat := by
        rw [Json.get_toPyMembers]
        rfl
      rw [Worker.requestOf, hm, Option.bind_some, hmethod, hparams]
      rfl
  · -- a frame that is too long is no message
    have hm : Worker.messageOf py raw = none := by
      rw [Worker.messageOf, if_pos]
      simp only [Bool.or_eq_true, decide_eq_true_eq]
      exact .inr (Nat.not_le.mp hfits)
    rw [if_neg (fun hc => hfits hc.1), Worker.requestOf, hm, Option.bind_none]

/-- An outcome that is there is no error. -/
theorem eq_ok_of_toOption {ε α : Type} {x : Except ε α} {a : α} (h : x.toOption = some a) :
    x = .ok a := by
  cases x with
  | error err => cases h
  | ok b => exact congrArg Except.ok (Option.some.inj h)

/-- What `validate_params` takes out of the parameters. -/
theorem validateParams_ok {repr : PyVal → Option PyStr} {members : List (PyStr × PyVal)}
    {state : PyVal} {questions : List (PyStr × PyVal)}
    (h : Worker.validateParams repr (.dict members) = .ok (state, questions)) :
    state = PyVal.get members "state" ∧ PyVal.get members "questions" = .dict questions := by
  rw [Worker.validateParams] at h
  simp only [bind, Except.bind, Except.mapError] at h
  split at h
  · cases h
  · split at h
    · rename_i dict hq
      split at h
      · cases h
      · split at h
        · cases h
        · cases h
          exact ⟨rfl, hq⟩
    · cases h

/-- **Forwarding up to order and numbers.**  Whatever body the daemon accepts, with no key
    twice in an object: the agent is called at most once for its frame, with the state and the
    questions that `json.loads` would read from the body with its members in key order and its
    numbers as `serde_json` has read them; and it is called if the frame fits, is read, and
    the state passes the worker's own check. -/
theorem forwarded_document {cfg : Config} {host : Host} {py : PyHost}
    {parseFloat : String → PyFloat} (hvec : host.toVec = Json.compact) (hjson : host.ReadsJson)
    (hreal : PrintsReals host.f64Text) (hpy : py.ReadsJson parseFloat) {attached : Bool}
    {body : List UInt8} {kinds : List (String × String)} {params : Json}
    (h : predictImpl cfg host attached (.ok body) = .ok (kinds, params)) {d : Document}
    (hd : Padded d.Spells body) (hdist : d.Distinct) (n : Nat) :
    ∃ members raw, (d.asForwarded host.f64Text).toPy parseFloat = .dict members ∧
      PyStr.decode (writeFrame host (Sup.predictFrame (toString n) params)) = some raw ∧
      ∀ (σ : Type) (agent : Agent σ) (s : σ),
        (∀ call ∈ (Worker.serve py agent.recording (s, []) [raw]).agent.2,
          call.state = PyVal.get members "state" ∧
            .dict call.questions = PyVal.get members "questions") ∧
        ((Worker.serve py agent.recording (s, []) [raw]).agent.2.length ≤ 1) ∧
        (raw.strip.encodeReplace.length ≤ Worker.maxInputBytes →
          (py.loads raw.strip).toOption.isSome →
          Worker.validateState (PyVal.get members "state") = .ok () →
          (Worker.serve py agent.recording (s, []) [raw]).agent.2.length = 1) := by
  obtain ⟨request, hreq, rfl, hstate, hne, hquestions⟩ := predictImpl_validated h
  obtain ⟨hwf, members, hmembers, hgets, hgetq⟩ :=
    toPy_asForwarded hjson hreal parseFloat hreq hd hdist
  obtain ⟨raw, hdec, -, hrequest⟩ := requestOf_predictFrame hvec hpy hwf (toString n)
  refine ⟨members, raw, hmembers, hdec, fun σ agent s => ?_⟩
  obtain ⟨hcalls, hone⟩ := Worker.calls_of_line py agent s raw
  refine ⟨fun call hc => ?_, ?_, fun hfits hloads hvalid => hone ?_⟩
  · -- a call has the state and the questions of the frame, which are the request's
    have hcall := hcalls call hc
    rw [hrequest] at hcall
    split at hcall
    · have hok := validateParams_ok (eq_ok_of_toOption hcall)
      rw [hgets, hgetq, hok.1, ← hok.2, Json.get_toPyMembers, Json.get_toPyMembers]
      exact ⟨rfl, rfl⟩
    · cases hcall
  · -- one frame, one call at most
    cases hreq' : Worker.requestOf py raw with
    | some r => exact Nat.le_of_eq (hone (by rw [hreq']; rfl))
    | none =>
      have hnil : (Worker.serve py agent.recording (s, []) [raw]).agent.2 = [] :=
        List.eq_nil_iff_forall_not_mem.mpr fun call hc => by
          have hcall := hcalls call hc
          rw [hreq'] at hcall
          cases hcall
      rw [hnil]
      exact Nat.zero_le 1
  · -- the questions have passed the daemon's stricter check
    rw [hgets] at hvalid
    rw [hrequest, if_pos ⟨hfits, hloads⟩,
      (validateParams_params hne hquestions parseFloat py.repr).mpr hvalid]
    rfl

/-! ### A body with members out of order and a big integer -/

/-- The text of its state, with the members `b`, of value `2 ^ 64`, and `a`. -/
def swappedState : List UInt8 :=
  0x7b :: (Json.quote "b" ++ 0x3a :: utf8 "18446744073709551616" ++ 0x2c ::
    (Json.quote "a" ++ 0x3a :: utf8 "null")) ++ [0x7d]

/-- The text of the body, with one question. -/
def swappedBody : List UInt8 := noulBody swappedState (utf8 "null")

/-- What it says. -/
def swapped : Document :=
  noulDocument (.obj [("b", .int 18446744073709551616), ("a", .null)]) .null

/-- The request it is read as. -/
def swappedRequest : PredictRequest :=
  noulRequest (.obj [("a", .null), ("b", .float "1.8446744073709552e+19")]) .null

/-- Library functions that read this body. -/
def swappedHost : Host :=
  { Replay.host with
    document := fun body =>
      if body = swappedBody then .ok swapped else .error "expected value at line 1 column 1"
    f64Text := fun literal =>
      if literal = "18446744073709551616" then some "1.8446744073709552e+19" else none }

/-- A `json.loads` that reads the text the daemon prints for one value. -/
def frameHost (v : Json) : PyHost where
  loads line :=
    if line = (Json.text v).map PyStr.ofChar then .ok (v.toPy .finite)
    else .error (.ofString "Expecting value: line 1 column 1 (char 0)")
  repr
    | .str s => some (PyStr.ofChar '\'' :: s ++ [PyStr.ofChar '\''])
    | _ => none
  dumpsRaises _ := false

/-- It reads JSON texts as what they say. -/
theorem frameHost_readsJson {v : Json} (h : v.WellFormed) : (frameHost v).ReadsJson .finite := by
  intro d cs u hspells hloads
  simp only [frameHost] at hloads
  split at hloads
  · rename_i hline
    obtain rfl := PyStr.ofChar_injective.list_map hline
    rw [← Json.compact_eq] at hspells
    obtain rfl := Document.eq_of_spells hspells (.bare (Document.spells_compact h))
    cases hloads
    rw [Document.toPy_ofJson h]
  · cases hloads

/-- The body is a JSON text. -/
theorem spells_swapped : swapped.Spells swappedBody := by
  have hint : utf8 "18446744073709551616" = utf8 (toString (18446744073709551616 : Int)) := by
    decide +kernel
  exact spells_noulBody
    ⟨_, rfl, _, _, _, rfl, .bare (.quote _), .bare hint, _, _, rfl, .bare (.quote _), .bare rfl⟩
    rfl

/-- It has no key twice. -/
theorem distinct_swapped : swapped.Distinct := by
  simp [swapped, noulDocument, Document.Distinct, Document.DistinctMembers, Json.keys]

/-- The float that is read for `2 ^ 64` is printed as a real literal. -/
theorem isReal_big : IsReal "1.8446744073709552e+19" := by
  refine ⟨[], ['1'], ".8446744073709552".toList, "e+19".toList, by decide, .inl rfl,
    ⟨by decide, List.all_eq_true.mp (by decide)⟩, .inr (by decide),
    .inr ⟨"8446744073709552".toList, by decide, by decide, List.all_eq_true.mp (by decide)⟩,
    .inr ⟨'e', ['+'], ['1', '9'], by decide, .inl rfl, .inr (.inl rfl), by decide,
      List.all_eq_true.mp (by decide)⟩, .inl (by decide)⟩

/-- Its floats are real literals. -/
theorem swappedHost_printsReals : PrintsReals swappedHost.f64Text := by
  intro literal text h
  simp only [swappedHost] at h
  split at h
  · cases h
    exact isReal_big
  · cases h

/-- It accepts JSON texts only. -/
theorem swappedHost_readsJson : swappedHost.ReadsJson := by
  intro body d h
  simp only [swappedHost] at h
  split at h
  · rename_i hbody
    cases h
    exact hbody ▸ .bare spells_swapped
  · cases h

/-- The body is forwarded. -/
theorem predictImpl_swappedBody :
    predictImpl Replay.config swappedHost true (.ok swappedBody) =
      .ok ([("q", "noul")], swappedRequest.params) := by
  have hdoc : swappedHost.document swappedBody = .ok swapped := by simp [swappedHost]
  exact predictImpl_noulBody (by decide) hdoc rfl rfl rfl

/-- What is forwarded of it is well formed. -/
theorem wellFormed_swapped : swappedRequest.params.WellFormed := by
  have hsorted : Json.Sorted swappedRequest.questions ∧
      Json.Sorted [("a", .null), ("b", .float "1.8446744073709552e+19")] ∧
      Json.Sorted [("instructions", .null), ("type", .str "noul")] ∧
      Json.Sorted [("questions", .obj swappedRequest.questions), ("state", swappedRequest.state)] :=
    ⟨List.pairwise_singleton _ _, by show ["a", "b"].Pairwise (· < ·); decide,
      by show ["instructions", "type"].Pairwise (· < ·); decide,
      by show ["questions", "state"].Pairwise (· < ·); decide⟩
  obtain ⟨hq, hs, hi, hp⟩ := hsorted
  exact ⟨hp, ⟨hq, ⟨hi, trivial, trivial, trivial⟩, trivial⟩, ⟨hs, trivial, isReal_big, trivial⟩,
    trivial⟩

/-- An agent that returns `null`. -/
def nullAgent : Agent Unit := ⟨fun s _ _ => (.ok .null, s)⟩

/-- The result at this body: the model sees `a` first, and a float. -/
theorem forwarded_document_swapped :
    ∃ raw, PyStr.decode (writeFrame swappedHost
        (Sup.predictFrame (toString 1) swappedRequest.params)) = some raw ∧
      ∀ call ∈ (Worker.serve (frameHost (Sup.predictFrame (toString 1) swappedRequest.params))
          nullAgent.recording ((), []) [raw]).agent.2,
        call.state = .dict [(.ofString "a", .null),
        (.ofString "b", .float (.finite "1.8446744073709552e+19"))] := by
  obtain ⟨members, raw, hmembers, hdec, hcalls⟩ := @forwarded_document Replay.config swappedHost
    (frameHost (Sup.predictFrame (toString 1) swappedRequest.params)) .finite
    rfl swappedHost_readsJson swappedHost_printsReals
    (frameHost_readsJson (wellFormed_predictFrame wellFormed_swapped _)) true swappedBody
    [("q", "noul")] swappedRequest.params predictImpl_swappedBody swapped (.bare spells_swapped)
    distinct_swapped 1
  refine ⟨raw, hdec, fun call hc => ?_⟩
  rw [((hcalls Unit nullAgent ()).1 call hc).1]
  obtain rfl := PyVal.dict.inj hmembers
  rfl

/-- The daemon accepts this body; its frame makes one call, and the state of it is not what
    `json.loads` reads from the body. -/
theorem members_reordered :
    predictImpl Replay.config swappedHost true (.ok swappedBody) =
      .ok ([("q", "noul")], swappedRequest.params) ∧
    Padded swapped.Spells swappedBody ∧ swapped.Distinct ∧
    ∃ members raw call, swapped.toPy .finite = .dict members ∧
      PyStr.decode (writeFrame swappedHost
        (Sup.predictFrame (toString 1) swappedRequest.params)) = some raw ∧
      (Worker.serve (frameHost (Sup.predictFrame (toString 1) swappedRequest.params))
        nullAgent.recording ((), []) [raw]).agent.2 = [call] ∧
      call.state = .dict [(.ofString "a", .null),
        (.ofString "b", .float (.finite "1.8446744073709552e+19"))] ∧
      PyVal.get members "state" = .dict [(.ofString "b", .int 18446744073709551616),
        (.ofString "a", .null)] ∧
      call.state ≠ PyVal.get members "state" := by
  refine ⟨predictImpl_swappedBody, .bare spells_swapped, distinct_swapped, ?_⟩
  have hwf := wellFormed_predictFrame wellFormed_swapped (toString 1)
  obtain ⟨raw, hdec, hstrip, hrequest⟩ := requestOf_predictFrame
    (show swappedHost.toVec = Json.compact from rfl)
    (frameHost_readsJson hwf) wellFormed_swapped (toString 1)
  -- the checks of the worker pass
  have hfits : raw.strip.encodeReplace.length ≤ Worker.maxInputBytes := by
    rw [hstrip, PyStr.encodeReplace_map]
    decide +kernel
  have hloads : ((frameHost (Sup.predictFrame (toString 1) swappedRequest.params)).loads
      raw.strip).toOption.isSome = true := by
    rw [hstrip, frameHost]
    simp only [if_true]
    rfl
  rw [if_pos ⟨hfits, hloads⟩] at hrequest
  obtain ⟨hcalls, hone⟩ := Worker.calls_of_line
    (frameHost (Sup.predictFrame (toString 1) swappedRequest.params)) nullAgent () raw
  -- so the agent is called, with the members in key order
  obtain ⟨call, hcall⟩ := List.length_eq_one_iff.mp (hone (by rw [hrequest]; rfl))
  have hstate : call.state = .dict [(.ofString "a", .null),
        (.ofString "b", .float (.finite "1.8446744073709552e+19"))] := by
    have hc := hcalls call (by rw [hcall]; exact List.mem_singleton_self _)
    rw [hrequest] at hc
    have hok := (validateParams_ok (eq_ok_of_toOption hc)).1
    rw [hok]
    rfl
  refine ⟨_, raw, call, rfl, hdec, hcall, hstate, rfl, ?_⟩
  rw [hstate]
  intro he
  -- the first keys differ
  have hkeys : PyStr.ofString "a" = PyStr.ofString "b" :=
    (Prod.mk.inj (List.cons.inj (PyVal.dict.inj he)).1).1
  exact absurd hkeys (by decide)

end Layad
