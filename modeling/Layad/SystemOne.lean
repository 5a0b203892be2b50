import Layad.Api
import Layad.Json.Map

namespace Layad

/-!
# The projection onto Jev's types

`/v1/systemone` answers with exactly the members Jev declares: `jevResult` picks them out of
whatever the worker returned.  The shape of its output, what it does not depend on, and that
it projects (`jevResult_projects`).
-/

open Json

/-- The keys Jev declares for the answer to a question of one type. -/
def jevKeys : String → Option (List String)
  | "noul" => some ["type", "noul"]
  | "choice" => some ["type", "choice", "confidence", "probabilities"]
  | "score" => some ["type", "score", "confidence", "legend", "probabilities"]
  | _ => none

/-- The exact answer key set Jev declares for one question type; a key the worker omitted
    becomes `null`. -/
def jevAnswer (kind : String) (answer : Json) : Json :=
  match jevKeys kind with
  | some keys => .obj (toMap (keys.map fun key => (key, (answer.get key).getD .null)))
  | none => answer

/-- Project a worker result onto Jev's `SystemOneResult`: exactly `model`, `answers` and
    `usage`. -/
def jevResult (kinds : List (String × String)) (result : Json) (fallbackModel : String) : Json :=
  let object := result.asObject
  let answers := (object.bind (·.lookup "answers")).bind Json.asObject
  let model := ((object.bind (·.lookup "model")).bind Json.asStr).getD fallbackModel
  let usage := (object.bind (·.lookup "usage")).bind Json.asObject
  let counter := fun key => ((usage.bind (·.lookup key)).bind Json.asU64).getD 0
  let projected := toMap (kinds.map fun (name, kind) =>
    (name, jevAnswer kind ((answers.bind (·.lookup name)).getD .null)))
  .obj (toMap [("model", .str model), ("answers", .obj projected),
    ("usage", .obj (toMap [("input_tokens", .int (counter "input_tokens")),
      ("output_tokens", .int (counter "output_tokens"))]))])

/-! ### What the output is made of -/

/-- The worker's answer to one question. -/
def workerAnswer (result : Json) (name : String) : Json :=
  ((result.get "answers").bind (·.get name)).getD .null

/-- The worker's model, or the one of the daemon. -/
def workerModel (result : Json) (fallbackModel : String) : String :=
  ((result.get "model").bind Json.asStr).getD fallbackModel

/-- One of the worker's counters, `0` if it has none. -/
def workerCounter (result : Json) (key : String) : Nat :=
  (((result.get "usage").bind (·.get key)).bind Json.asU64).getD 0

/-- The projected answers. -/
def jevAnswers (kinds : List (String × String)) (result : Json) : List (String × Json) :=
  toMap (kinds.map fun m => (m.1, jevAnswer m.2 (workerAnswer result m.1)))

/-- The counters stand in key order. -/
theorem toMap_counters (i o : Json) :
    toMap [("input_tokens", i), ("output_tokens", o)] =
      [("input_tokens", i), ("output_tokens", o)] := by
  have h : ¬ "output_tokens" < "input_tokens" := by decide
  simp [toMap, Json.insert, h]

/-- The fields of the result are put in key order. -/
theorem toMap_fields (m a u : Json) :
    toMap [("model", m), ("answers", a), ("usage", u)] =
      [("answers", a), ("model", m), ("usage", u)] := by
  have ham : "answers" < "model" := by decide
  have hua : ¬ "usage" < "answers" := by decide
  have hum : ¬ "usage" < "model" := by decide
  simp [toMap, Json.insert, ham, hua, hum]

/-- A member of an object. -/
theorem asObject_bind_lookup (v : Json) (key : String) :
    v.asObject.bind (·.lookup key) = v.get key := by
  cases v <;> rfl

/-- The result of Jev's path, field by field. -/
theorem jevResult_eq (kinds : List (String × String)) (result : Json) (fallbackModel : String) :
    jevResult kinds result fallbackModel =
      .obj [("answers", .obj (jevAnswers kinds result)),
        ("model", .str (workerModel result fallbackModel)),
        ("usage", .obj [("input_tokens", .int (workerCounter result "input_tokens")),
          ("output_tokens", .int (workerCounter result "output_tokens"))])] := by
  have hmember : ∀ field key : String,
      ((result.asObject.bind (·.lookup field)).bind Json.asObject).bind (·.lookup key) =
        (result.get field).bind (·.get key) := by
    intro field key
    rw [asObject_bind_lookup, Option.bind_assoc]
    exact congrArg _ (funext fun v => asObject_bind_lookup v key)
  have hprojected : toMap (kinds.map fun m : String × String => (m.1, jevAnswer m.2
      ((((result.asObject.bind (·.lookup "answers")).bind Json.asObject).bind
        (·.lookup m.1)).getD .null))) = jevAnswers kinds result := by
    rw [jevAnswers]
    exact congrArg _ (List.map_congr_left fun m _ => by rw [hmember, workerAnswer])
  have hmodel : ((result.asObject.bind (·.lookup "model")).bind Json.asStr).getD fallbackModel =
      workerModel result fallbackModel := by
    rw [asObject_bind_lookup, workerModel]
  have hcounter : ∀ key, ((((result.asObject.bind (·.lookup "usage")).bind Json.asObject).bind
      (·.lookup key)).bind Json.asU64).getD 0 = workerCounter result key := fun key => by
    rw [hmember, workerCounter]
  rw [jevResult]
  simp only [hprojected, hmodel, hcounter]
  rw [toMap_counters, toMap_fields]

/-! ### Members that are not declared -/

/-- The members of an object under the given keys, each replaced by `f`; any other value is
    left alone. -/
def keep (keys : List String) (f : String → Json → Json) : Json → Json
  | .obj members =>
    .obj (members.filterMap fun m => if m.1 ∈ keys then some (m.1, f m.1 m.2) else none)
  | v => v

/-- The members of an answer, for each type of question Jev has. -/
def answerKeys : List (String × List String) :=
  [("noul", ["type", "noul"]),
   ("choice", ["type", "choice", "confidence", "probabilities"]),
   ("score", ["type", "score", "confidence", "legend", "probabilities"])]

/-- The keys declared for the answer to a named question. -/
def declaredKeys (kinds : List (String × String)) (name : String) : List String :=
  ((kinds.lookup name).bind fun kind => answerKeys.lookup kind).getD []

/-- A worker result without the members Jev does not declare, at every level. -/
def prune (kinds : List (String × String)) : Json → Json :=
  keep ["answers", "model", "usage"] fun
    | "answers" => keep (keys kinds) fun name => keep (declaredKeys kinds name) fun _ v => v
    | "usage" => keep ["input_tokens", "output_tokens"] fun _ v => v
    | _ => fun v => v

/-- What is kept is found as it was, but for the function applied. -/
theorem get_keep (ks : List String) (f : String → Json → Json) (v : Json) (k : String) :
    (keep ks f v).get k = if k ∈ ks then (v.get k).map (f k) else none := by
  cases v with
  | obj members =>
    induction members with
    | nil => simp [keep, Json.get]
    | cons m rest ih =>
      obtain ⟨k₀, v₀⟩ := m
      simp only [keep, Json.get, List.filterMap_cons, lookup_cons] at ih ⊢
      by_cases hmem : k₀ ∈ ks
      · rw [if_pos hmem]
        simp only [lookup_cons]
        by_cases hk : k = k₀
        · rw [if_pos hk, if_pos hk, hk, if_pos hmem, Option.map_some]
        · rw [if_neg hk, if_neg hk, ih]
      · rw [if_neg hmem]
        by_cases hk : k = k₀
        · rw [if_pos hk, ih, hk, if_neg hmem, if_neg hmem]
        · rw [if_neg hk, ih]
  | _ => simp [keep, Json.get]

/-- An answer is projected by what stands under its keys. -/
theorem jevAnswer_congr {kind : String} {ks : List String} (hks : jevKeys kind = some ks)
    {a b : Json} (h : ∀ key ∈ ks, (a.get key).getD .null = (b.get key).getD .null) :
    jevAnswer kind a = jevAnswer kind b := by
  simp only [jevAnswer, hks]
  rw [List.map_congr_left fun key hkey => by rw [h key hkey]]

variable {kinds : List (String × String)} {name kind : String}

/-- The keys `jevAnswer` picks are those of the table. -/
theorem lookup_answerKeys {ks : List String} (hks : jevKeys kind = some ks) :
    answerKeys.lookup kind = some ks := by
  unfold jevKeys at hks
  split at hks <;> cases hks <;> rfl

/-- The declared keys of a requested question are those of its type. -/
theorem declaredKeys_eq (hn : (keys kinds).Nodup) (hm : (name, kind) ∈ kinds) {ks : List String}
    (hks : jevKeys kind = some ks) : declaredKeys kinds name = ks := by
  rw [declaredKeys, lookup_of_mem hn hm, Option.bind_some, lookup_answerKeys hks,
    Option.getD_some]

/-- A question is among its keys. -/
theorem mem_keys (hm : (name, kind) ∈ kinds) : name ∈ keys kinds :=
  List.mem_map.mpr ⟨_, hm, rfl⟩

/-- An answer keeps what its type declares. -/
theorem jevAnswer_prune (hn : (keys kinds).Nodup) (hm : (name, kind) ∈ kinds) {ks : List String}
    (hks : jevKeys kind = some ks) (result : Json) :
    jevAnswer kind (workerAnswer (prune kinds result) name) =
      jevAnswer kind (workerAnswer result name) := by
  have hanswer : workerAnswer (prune kinds result) name =
      (((result.get "answers").bind (·.get name)).map (keep ks fun _ v => v)).getD .null := by
    rw [workerAnswer, prune, get_keep, if_pos (by decide)]
    cases result.get "answers" with
    | none => rfl
    | some answers =>
      show ((keep (keys kinds) _ answers).get name).getD .null = _
      rw [get_keep, if_pos (mem_keys hm), declaredKeys_eq hn hm hks]
      rfl
  rw [hanswer, workerAnswer]
  refine jevAnswer_congr hks fun key hkey => ?_
  cases (result.get "answers").bind (·.get name) with
  | none => rfl
  | some answer =>
    rw [Option.map_some, Option.getD_some, get_keep, if_pos hkey, Option.map_id', Option.getD_some]

/-- The model's name is kept. -/
theorem workerModel_prune (kinds : List (String × String)) (result : Json) (fallback : String) :
    workerModel (prune kinds result) fallback = workerModel result fallback := by
  rw [workerModel, workerModel, prune, get_keep, if_pos (by decide)]
  cases result.get "model" <;> rfl

/-- The counters are kept. -/
theorem workerCounter_prune (kinds : List (String × String)) (result : Json) {key : String}
    (hkey : key ∈ ["input_tokens", "output_tokens"]) :
    workerCounter (prune kinds result) key = workerCounter result key := by
  rw [workerCounter, workerCounter, prune, get_keep, if_pos (by decide)]
  cases result.get "usage" with
  | none => rfl
  | some usage =>
    show ((((keep ["input_tokens", "output_tokens"] _ usage).get key).bind Json.asU64).getD 0) = _
    rw [get_keep, if_pos hkey, Option.map_id', Option.bind_some]

/-- What Jev does not declare has no influence. -/
theorem jevResult_prune (hn : (keys kinds).Nodup)
    (ht : ∀ m ∈ kinds, ∃ ks, jevKeys m.2 = some ks) (result : Json) (fallback : String) :
    jevResult kinds (prune kinds result) fallback = jevResult kinds result fallback := by
  have hanswers : jevAnswers kinds (prune kinds result) = jevAnswers kinds result := by
    rw [jevAnswers, jevAnswers]
    refine congrArg toMap (List.map_congr_left fun m hm => ?_)
    obtain ⟨ks, hks⟩ := ht m hm
    rw [jevAnswer_prune hn hm hks]
  rw [jevResult_eq, jevResult_eq, hanswers, workerModel_prune,
    workerCounter_prune kinds result (by decide), workerCounter_prune kinds result (by decide)]

/-! ### The answers -/

/-- No key is declared twice. -/
theorem jevKeys_nodup {ks : List String} (h : jevKeys kind = some ks) : ks.Nodup := by
  unfold jevKeys at h
  split at h <;> cases h <;> decide

/-- The keys of members made for keys. -/
theorem keys_map_pair {α : Type} (f : String → α) (ks : List String) :
    keys (ks.map fun key => (key, f key)) = ks := by
  rw [keys, List.map_map]
  exact List.map_id ks

/-- A projected answer has the declared keys, and under each what the worker has there. -/
theorem jevAnswer_eq {ks : List String} (hks : jevKeys kind = some ks) (answer : Json) :
    ∃ members, jevAnswer kind answer = .obj members ∧ (keys members).Perm ks ∧
      ∀ key ∈ ks, members.lookup key = some ((answer.get key).getD .null) := by
  have hnd : (keys (ks.map fun key => (key, (answer.get key).getD .null))).Nodup := by
    rw [keys_map_pair]
    exact jevKeys_nodup hks
  refine ⟨toMap (ks.map fun key => (key, (answer.get key).getD .null)), ?_, ?_, ?_⟩
  · rw [jevAnswer, hks]
  · have := keys_toMap hnd
    rwa [keys_map_pair] at this
  · intro key hkey
    rw [lookup_toMap hnd]
    exact lookup_of_mem hnd (List.mem_map.mpr ⟨key, hkey, rfl⟩)

/-- A projected answer is projected to itself. -/
theorem jevAnswer_jevAnswer {ks : List String} (hks : jevKeys kind = some ks) (answer : Json) :
    jevAnswer kind (jevAnswer kind answer) = jevAnswer kind answer := by
  obtain ⟨members, hmembers, -, hlookup⟩ := jevAnswer_eq hks answer
  refine jevAnswer_congr hks fun key hkey => ?_
  rw [hmembers, Json.get, hlookup key hkey, Option.getD_some]

/-- There is one answer for each question. -/
theorem keys_jevAnswers (hn : (keys kinds).Nodup) (result : Json) :
    (keys (jevAnswers kinds result)).Perm (keys kinds) := by
  have hkeys : keys (kinds.map fun m => (m.1, jevAnswer m.2 (workerAnswer result m.1))) =
      keys kinds := by
    rw [keys, List.map_map]
    rfl
  have := keys_toMap (hkeys ▸ hn)
  rwa [hkeys] at this

/-- The answer to a question is the projection of the worker's. -/
theorem lookup_jevAnswers (hn : (keys kinds).Nodup) (hm : (name, kind) ∈ kinds) (result : Json) :
    (jevAnswers kinds result).lookup name = some (jevAnswer kind (workerAnswer result name)) := by
  have hkeys : (keys (kinds.map fun m =>
      (m.1, jevAnswer m.2 (workerAnswer result m.1)))).Nodup := by
    rw [keys, List.map_map]
    exact hn
  rw [jevAnswers, lookup_toMap hkeys]
  exact lookup_of_mem hkeys (List.mem_map.mpr ⟨_, hm, rfl⟩)

/-! ### The projection -/

/-- A counter has 64 bits. -/
theorem workerCounter_lt (result : Json) (key : String) : workerCounter result key < 2 ^ 64 := by
  rw [workerCounter]
  generalize (result.get "usage").bind (·.get key) = counter
  rcases counter with _ | v
  · decide
  · cases v with
    | int i =>
      rw [Option.bind_some, Json.asU64]
      split
      · show i.toNat < 2 ^ 64
        omega
      · decide
    | _ => exact show 0 < 2 ^ 64 by decide

/-- A number of 64 bits is read as itself. -/
theorem asU64_ofNat {n : Nat} (h : n < 2 ^ 64) : (Json.int n).asU64 = some n := by
  rw [Json.asU64, if_pos (by omega)]
  rfl

/-- A projected result is left alone, whatever model the daemon would fall back to. -/
theorem jevResult_jevResult (hn : (keys kinds).Nodup)
    (ht : ∀ m ∈ kinds, ∃ ks, jevKeys m.2 = some ks) (result : Json) (fallback fallback' : String) :
    jevResult kinds (jevResult kinds result fallback) fallback' =
      jevResult kinds result fallback := by
  obtain ⟨projected, hprojected⟩ : ∃ v, v = jevResult kinds result fallback := ⟨_, rfl⟩
  rw [← hprojected]
  rw [jevResult_eq kinds result] at hprojected
  have hanswers : jevAnswers kinds projected = jevAnswers kinds result := by
    rw [jevAnswers, jevAnswers]
    refine congrArg toMap (List.map_congr_left fun m hm => ?_)
    obtain ⟨ks, hks⟩ := ht m hm
    have hname : workerAnswer projected m.1 = jevAnswer m.2 (workerAnswer result m.1) := by
      rw [workerAnswer, hprojected]
      show ((jevAnswers kinds result).lookup m.1).getD .null = _
      rw [lookup_jevAnswers hn hm, Option.getD_some]
    rw [hname, jevAnswer_jevAnswer hks]
  have hmodel : workerModel projected fallback' = workerModel result fallback := by
    rw [workerModel, hprojected]
    rfl
  have hcounter : ∀ key,
      (projected.get "usage").bind (·.get key) = some (.int (workerCounter result key)) →
      workerCounter projected key = workerCounter result key := fun key h => by
    rw [workerCounter, h, Option.bind_some, asU64_ofNat (workerCounter_lt result _),
      Option.getD_some]
  have hinput := hcounter "input_tokens" (by rw [hprojected]; rfl)
  have houtput := hcounter "output_tokens" (by rw [hprojected]; rfl)
  rw [jevResult_eq, hanswers, hmodel, hinput, houtput, hprojected]

/-- **The projection is total, exact and idempotent**, for distinct questions of the types Jev
    has, any result and any model to fall back to: exactly the declared members, with the
    worker's values or `null`; nothing else of the result matters; and projecting again
    changes nothing. -/
theorem jevResult_projects (kinds : List (String × String)) (hn : (kinds.map Prod.fst).Nodup)
    (ht : ∀ m ∈ kinds, m.2 ∈ ["choice", "score", "noul"]) (result : Json) (fallback : String) :
    (∃ answers model, ∃ input output : Nat,
      jevResult kinds result fallback = .obj [("answers", .obj answers), ("model", .str model),
        ("usage", .obj [("input_tokens", .int input), ("output_tokens", .int output)])] ∧
      (answers.map Prod.fst).Perm (kinds.map Prod.fst) ∧
      (∀ name kind declared, (name, kind) ∈ kinds →
        (kind, declared) ∈ [("noul", ["type", "noul"]),
          ("choice", ["type", "choice", "confidence", "probabilities"]),
          ("score", ["type", "score", "confidence", "legend", "probabilities"])] →
        ∃ members, answers.lookup name = some (.obj members) ∧
        (members.map Prod.fst).Perm declared ∧
        ∀ key ∈ declared, members.lookup key =
          some ((((result.get "answers").bind (·.get name)).bind (·.get key)).getD .null)) ∧
      model = ((result.get "model").bind Json.asStr).getD fallback ∧
      (∀ key count, (key, count) ∈ [("input_tokens", input), ("output_tokens", output)] →
        count = (((result.get "usage").bind (·.get key)).bind Json.asU64).getD 0)) ∧
    (∀ result', prune kinds result' = prune kinds result →
      jevResult kinds result' fallback = jevResult kinds result fallback) ∧
    ∀ fallback', jevResult kinds (jevResult kinds result fallback) fallback' =
      jevResult kinds result fallback := by
  have ht : ∀ m ∈ kinds, ∃ ks, jevKeys m.2 = some ks := by
    intro m hm
    have := ht m hm
    simp only [List.mem_cons, List.not_mem_nil, or_false] at this
    rcases this with h | h | h <;> exact ⟨_, by rw [h]; rfl⟩
  refine ⟨⟨jevAnswers kinds result, workerModel result fallback,
    workerCounter result "input_tokens", workerCounter result "output_tokens",
    jevResult_eq kinds result fallback, keys_jevAnswers hn result, ?_, rfl, ?_⟩, ?_, ?_⟩
  · -- the literal keys are those of `jevKeys`
    intro name kind declared hm hdeclared
    have hks : jevKeys kind = some declared := by
      simp only [List.mem_cons, List.not_mem_nil, or_false, Prod.mk.injEq] at hdeclared
      rcases hdeclared with ⟨rfl, rfl⟩ | ⟨rfl, rfl⟩ | ⟨rfl, rfl⟩ <;> rfl
    obtain ⟨members, hmembers, hkeys, hlookup⟩ := jevAnswer_eq hks (workerAnswer result name)
    refine ⟨members, by rw [lookup_jevAnswers hn hm, hmembers], hkeys, fun key hkey => ?_⟩
    rw [hlookup key hkey, workerAnswer]
    cases (result.get "answers").bind (·.get name) <;> rfl
  · intro key count hm
    simp only [List.mem_cons, List.not_mem_nil, or_false, Prod.mk.injEq] at hm
    rcases hm with ⟨rfl, rfl⟩ | ⟨rfl, rfl⟩ <;> rfl
  · -- the result is a function of what is declared
    intro result' h
    rw [← jevResult_prune hn ht result', h, jevResult_prune hn ht]
  · exact jevResult_jevResult hn ht result fallback

/-- A reply with an action block, a missing key and a counter that is none. -/
theorem jevResult_projects_reply : ∃ answers,
    jevResult [("ok", "noul")] (.obj [("action", .null), ("answers", .obj [("ok",
      .obj [("confidence", .int 1), ("type", .str "noul")])]), ("usage", .obj [("input_tokens",
      .str "7")])]) "base" = .obj [("answers", .obj answers), ("model", .str "base"),
      ("usage", .obj [("input_tokens", .int 0), ("output_tokens", .int 0)])] := by
  obtain ⟨answers, model, input, output, heq, -, -, hmodel, hcount⟩ :=
    (jevResult_projects [("ok", "noul")] (by decide) (by decide) (.obj [("action", .null),
      ("answers", .obj [("ok", .obj [("confidence", .int 1), ("type", .str "noul")])]),
      ("usage", .obj [("input_tokens", .str "7")])]) "base").1
  have hinput : input = 0 := hcount "input_tokens" _ (by simp)
  have houtput : output = 0 := hcount "output_tokens" _ (by simp)
  refine ⟨answers, ?_⟩
  rw [heq, hinput, houtput, show model = "base" from hmodel]
  rfl

end Layad
