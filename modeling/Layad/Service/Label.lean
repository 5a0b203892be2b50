import Layad.Library.Occurrence
import Layad.Service.Settings

/-!
# `service.sh`: the label filter

A label names a file in the plist directory and goes to `launchctl` as an argument.  The
`case` pattern is the complement of five shell patterns; what it lets through is the language
of dotted labels (`admitted_iff`), none of which leaves the plist directory
(`plist_childOf`).  A dotted label may begin with a hyphen, and then `launchctl` does not take
it for an operand (`label_filter`).
-/

namespace Layad.Service

open Glob Occurrence

/-! ### The language -/

/-- A letter, a digit, an underscore or a hyphen. -/
def componentCharacter (c : Char) : Bool := c.isAlphanum || c == '_' || c == '-'

/-- Components with something in them, one or more, with dots between them. -/
inductive Dotted : List Char → Prop where
  | component {text : List Char} (hne : text ≠ [])
      (h : ∀ c ∈ text, componentCharacter c = true) : Dotted text
  | dot {text rest : List Char} (hne : text ≠ [])
      (h : ∀ c ∈ text, componentCharacter c = true) (hrest : Dotted rest) :
      Dotted (text ++ '.' :: rest)

/-- What the filter looks at. -/
structure Neat (text : List Char) : Prop where
  ne_nil : text ≠ []
  characters : ∀ c ∈ text, Settings.labelCharacter c = true
  first : text.head? ≠ some '.'
  double : ¬ ['.', '.'] <:+: text
  last : text.getLast? ≠ some '.'

/-- A label's character that is no dot belongs to a component. -/
theorem componentCharacter_of_label {c : Char} (h : Settings.labelCharacter c = true)
    (hdot : c ≠ '.') : componentCharacter c = true := by
  simpa [Settings.labelCharacter, componentCharacter, hdot] using h

/-- A component's character is one of a label. -/
theorem label_of_componentCharacter {c : Char} (h : componentCharacter c = true) :
    Settings.labelCharacter c = true := by
  rw [componentCharacter] at h
  rw [Settings.labelCharacter]
  grind

/-- A component has no dot in it. -/
theorem ne_dot_of_componentCharacter {c : Char} (h : componentCharacter c = true) : c ≠ '.' := by
  rintro rfl
  exact absurd h (by decide)

/-- One more character in front of the first component. -/
theorem Dotted.cons {c : Char} {text : List Char} (hc : componentCharacter c = true)
    (h : Dotted text) : Dotted (c :: text) := by
  cases h with
  | component hne h => exact .component (List.cons_ne_nil c text) (List.forall_mem_cons.mpr ⟨hc, h⟩)
  | dot hne h hrest =>
    exact Dotted.dot (List.cons_ne_nil c _) (List.forall_mem_cons.mpr ⟨hc, h⟩) hrest

/-- What has no dot in it neither holds two of them nor begins with the first. -/
theorem clear_double {text : List Char} (h : ∀ c ∈ text, componentCharacter c = true) :
    Clear ['.', '.'] text = true :=
  clear_of_not_mem rfl fun hdot => ne_dot_of_componentCharacter (h _ hdot) rfl

/-- Components with dots between them have nothing the filter refuses. -/
theorem Dotted.neat {text : List Char} (h : Dotted text) : Neat text := by
  induction h with
  | @component text hne h =>
    refine ⟨hne, fun c hc => label_of_componentCharacter (h c hc), fun hfirst => ?_,
      not_infix_of_clear (List.cons_ne_nil _ _) (clear_double h), fun hlast => ?_⟩
    · exact ne_dot_of_componentCharacter (h _ (List.mem_of_head? hfirst)) rfl
    · exact ne_dot_of_componentCharacter (h _ (List.mem_of_getLast? hlast)) rfl
  | @dot text rest hne h hrest ih =>
    refine ⟨by simp, ?_, fun hfirst => ?_, fun hdouble => ?_, fun hlast => ?_⟩
    · intro c hc
      rcases List.mem_append.mp hc with hc | hc
      · exact label_of_componentCharacter (h c hc)
      · rcases List.mem_cons.mp hc with rfl | hc
        · decide
        · exact ih.characters c hc
    · rw [List.head?_append_of_ne_nil _ hne] at hfirst
      exact ne_dot_of_componentCharacter (h _ (List.mem_of_head? hfirst)) rfl
    · -- the dot is no part of a pair: what follows begins with a component
      rw [infix_append_iff (clear_double h), List.infix_cons_iff] at hdouble
      rcases hdouble with hpair | hdouble
      · rw [List.cons_prefix_cons, List.singleton_prefix_iff_head?_eq_some] at hpair
        exact ih.first hpair.2
      · exact ih.double hdouble
    · rw [List.getLast?_append_cons, List.getLast?_cons_of_ne_nil ih.ne_nil] at hlast
      exact ih.last hlast

/-- The text is read from its end: each character extends a component or begins a new one. -/
theorem dotted_of_neat : ∀ {text : List Char}, Neat text → Dotted text
  | [], h => absurd rfl h.ne_nil
  | [c], h => by
    have hc := componentCharacter_of_label (h.characters c List.mem_cons_self)
      fun hdot => h.first (by rw [hdot]; rfl)
    exact .component (List.cons_ne_nil c []) (by simpa using hc)
  | c :: d :: rest, h => by
    have hc := componentCharacter_of_label (h.characters c List.mem_cons_self)
      fun hdot => h.first (by rw [hdot]; rfl)
    have hchars := fun x hx => h.characters x (List.mem_cons_of_mem c hx)
    have hdouble : ¬ ['.', '.'] <:+: d :: rest := fun hd => h.double (List.infix_cons hd)
    by_cases hd : d = '.'
    · -- `c` is the end of a component
      subst hd
      have hne : rest ≠ [] := by
        rintro rfl
        exact h.last rfl
      have hcomponent : ∀ x ∈ [c], componentCharacter x = true := by simpa using hc
      refine Dotted.dot (List.cons_ne_nil c []) hcomponent (dotted_of_neat
        ⟨hne, fun x hx => hchars x (List.mem_cons_of_mem _ hx), fun hfirst => ?_, fun hd => ?_, ?_⟩)
      · refine hdouble (List.infix_cons_iff.mpr (.inl ?_))
        rw [List.cons_prefix_cons, List.singleton_prefix_iff_head?_eq_some]
        exact ⟨rfl, hfirst⟩
      · exact hdouble (List.infix_cons hd)
      · rw [← List.getLast?_cons_of_ne_nil hne, ← List.getLast?_cons_cons]
        exact h.last
    · -- `c` is within a component
      refine .cons hc (dotted_of_neat ⟨List.cons_ne_nil d rest, hchars, ?_, hdouble, ?_⟩)
      · simpa using hd
      · rw [← List.getLast?_cons_cons]
        exact h.last

/-! ### The filter -/

/-- The `case` pattern lets the label through. -/
def admitted (label : String) : Bool := !Settings.refusedLabels.any (accepts · label.toList)

/-- What the patterns of the filter say. -/
theorem refusedLabels_iff {text : List Char} :
    Settings.refusedLabels.any (accepts · text) = true ↔
      text = [] ∨ (∃ c ∈ text, Settings.labelCharacter c = false) ∨ text.head? = some '.' ∨
        ['.', '.'] <:+: text ∨ text.getLast? = some '.' := by
  have hfirst : accepts [Glob.char '.', .star] text = true ↔ text.head? = some '.' :=
    (accepts_beginning ['.']).trans List.singleton_prefix_iff_head?_eq_some
  have hdouble : accepts [.star, Glob.char '.', Glob.char '.', .star] text = true ↔
      ['.', '.'] <:+: text := accepts_infix ['.', '.']
  have hlast : accepts [.star, Glob.char '.'] text = true ↔ text.getLast? = some '.' :=
    (accepts_end ['.']).trans List.singleton_suffix_iff_getLast?_eq_some
  simp only [Settings.refusedLabels, List.any_cons, List.any_nil, Bool.or_false, Bool.or_eq_true,
    accepts_nil, accepts_somewhere, hfirst, hdouble, hlast, Bool.not_eq_true']

/-- The filter looks at what `Neat` says, and nothing else. -/
theorem admitted_iff_neat {label : String} : admitted label = true ↔ Neat label.toList := by
  rw [admitted, Bool.not_eq_true', ← Bool.not_eq_true, refusedLabels_iff]
  constructor
  · intro h
    simp only [not_or, not_exists, not_and, Bool.not_eq_false] at h
    exact ⟨h.1, h.2.1, h.2.2.1, h.2.2.2.1, h.2.2.2.2⟩
  · rintro ⟨hne, hchars, hfirst, hdouble, hlast⟩ (h | ⟨c, hc, h⟩ | h | h | h)
    · exact hne h
    · exact absurd (hchars c hc) (by simp [h])
    · exact hfirst h
    · exact hdouble h
    · exact hlast h

/-- The filter admits exactly the components with dots between them. -/
theorem admitted_iff {label : String} : admitted label = true ↔ Dotted label.toList :=
  admitted_iff_neat.trans ⟨dotted_of_neat, Dotted.neat⟩

/-- The check stands first: a label that is not admitted is what the script dies of. -/
theorem refusal_of_not_admitted {s : Settings} (h : admitted s.label = false) :
    s.refusal = some ("LAYAD_LABEL must be dotted components of letters, digits, '_' and '-' " ++
      s!"(got '{s.label}')") := by
  rw [admitted, Bool.not_eq_false'] at h
  rw [Settings.refusal, if_pos h]
  rfl

/-! ### What a label is used for -/

/-- A name in the directory itself. -/
def ChildOf (dir path : String) : Prop :=
  ∃ name, path = dir ++ "/" ++ name ∧ '/' ∉ name.toList ∧ name ∉ ["", ".", ".."]

/-- `launchctl list "$LABEL"` -/
def listArguments (s : Settings) : List String := ["list", s.label]

/-- An argument that begins with a hyphen is taken for an option. -/
def isOption (argument : String) : Bool := argument.toList.head? == some '-'

/-- The plist of such a label lies directly in the plist directory. -/
theorem plist_childOf {s : Settings} (h : Dotted s.label.toList) :
    ChildOf s.plistDir s.plist := by
  have hname : s.plistName.toList = s.label.toList ++ ".plist".toList := String.toList_append
  refine ⟨s.plistName, rfl, fun hslash => ?_, fun hname' => ?_⟩
  · rw [hname, List.mem_append] at hslash
    rcases hslash with hslash | hslash
    · exact absurd (h.neat.characters _ hslash) (by decide)
    · exact absurd hslash (by decide)
  · -- none of these names is as long as what every plist ends in
    have hlength : 6 ≤ s.plistName.toList.length := by
      rw [hname, List.length_append]
      exact Nat.le_add_left 6 _
    simp only [List.mem_cons, List.not_mem_nil, or_false] at hname'
    rcases hname' with hname' | hname' | hname'
    all_goals
      rw [hname'] at hlength
      exact absurd hlength (by decide)

/-- **The label filter admits the dotted labels**, and the plist of an admitted label is a
    child of the plist directory.  `launchctl list` takes every admitted label for an operand
    too, except a dotted label that begins with a hyphen. -/
theorem label_filter (s : Settings) :
    (admitted s.label = true ↔ Dotted s.label.toList) ∧
    (admitted s.label = true → ChildOf s.plistDir s.plist) ∧
    (((admitted s.label = true ↔ Dotted s.label.toList) ∧
        (admitted s.label = true → ChildOf s.plistDir s.plist ∧
          ∀ operand ∈ (listArguments s).tail, isOption operand = false)) ↔
      ¬ (Dotted s.label.toList ∧ s.label.toList.head? = some '-')) := by
  have hchild : admitted s.label = true → ChildOf s.plistDir s.plist :=
    fun h => plist_childOf (admitted_iff.mp h)
  refine ⟨admitted_iff, hchild, fun ⟨_, h⟩ ⟨hdotted, hhyphen⟩ => ?_, fun h => ?_⟩
  · have hoption := (h (admitted_iff.mpr hdotted)).2 s.label (List.mem_singleton_self _)
    simp [isOption, hhyphen] at hoption
  · refine ⟨admitted_iff, fun hadmitted => ⟨hchild hadmitted, fun operand hoperand => ?_⟩⟩
    obtain rfl := List.mem_singleton.mp hoperand
    have hhyphen : s.label.toList.head? ≠ some '-' :=
      fun hhyphen => h ⟨admitted_iff.mp hadmitted, hhyphen⟩
    simpa [isOption] using hhyphen

/-- The label `-x` passes the script's validation, and `launchctl list -x` gets an option. -/
theorem hyphen_label_admitted :
    ∃ e : Environment, e.LAYAD_LABEL = some "-x" ∧ e.settings.refusal = none ∧
      admitted e.settings.label = true ∧
      ¬ ∀ operand ∈ (listArguments e.settings).tail, isOption operand = false := by
  refine ⟨⟨"/layad", "/home", some "-x", none, none, none, none, none, none, none, none⟩, rfl,
    by decide, by decide, by decide⟩

end Layad.Service
