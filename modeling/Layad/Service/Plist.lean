import Layad.Library.Cksum
import Layad.Library.Escape
import Layad.Library.Occurrence
import Layad.Service.Settings
import Mathlib.Data.List.DropRight

/-!
# `service.sh`: the rendered plist and its ownership comment

A plist is recognised as a worktree's own when it holds the generator's marker and the comment
with the digest of the worktree's runtime home.  The values of the plist are escaped, so:

* `clear_xmlEscape` — no value holds the beginning of an ownership comment;
* `marker_infix_renderPlist` — every rendered plist holds the marker;
* `owned_renderPlist_iff` — it holds the comment of exactly the homes with its home's digest.
-/

namespace Layad.Service

open Escape Occurrence

/-! ### Escaping -/

/-- The five substitutions, in the order of the `sed` command. -/
def xmlEscape (text : List Char) : List Char :=
  replace '\'' "&apos;".toList <| replace '"' "&quot;".toList <| replace '>' "&gt;".toList <|
    replace '<' "&lt;".toList <| replace '&' "&amp;".toList text

/-- `$(...)` drops the line breaks at the end of the output. -/
def commandOutput (text : List Char) : List Char := text.rdropWhile (· == '\n')

/-- No later substitution brings back the `<` that an earlier one replaced. -/
theorem not_mem_xmlEscape (text : List Char) : '<' ∉ xmlEscape text := by
  have h : '<' ∉ replace '<' "&lt;".toList (replace '&' "&amp;".toList text) :=
    not_mem_replace (by decide) (.inl rfl)
  exact not_mem_replace (by decide) (.inr (not_mem_replace (by decide)
    (.inr (not_mem_replace (by decide) (.inr h)))))

/-! ### The marker and the owner comment -/

/-- The marker of every plist the script writes. -/
def MARKER : String := "<!-- generated by layad scripts/service.sh -->"

/-- What the owner comment begins with. -/
def HOME_MARKER : String := "<!-- layad-home-digest: "

/-- `cksum`'s number for a runtime home. -/
def digest (home : String) : Nat := (Cksum.crc (home.toList.flatMap String.utf8EncodeChar)).toNat

/-- What `cksum` prints: its number and the count of bytes. -/
def homeDigest (home : String) : String :=
  toString (digest home) ++ " " ++ toString (home.toList.flatMap String.utf8EncodeChar).length

/-- `${text%% *}` -/
def firstWord (text : String) : List Char := text.toList.takeWhile (· != ' ')

/-- `owner_comment`: the comment that names a home by its digest. -/
def ownerComment (home : String) : String :=
  HOME_MARKER ++ String.ofList (firstWord (homeDigest home)) ++ " -->"

/-! ### `render_plist` -/

/-- A value, escaped, in an element on a line of its own. -/
def stringElement (indent value : String) : String :=
  indent ++ "<string>" ++ String.ofList (commandOutput (xmlEscape value.toList)) ++ "</string>\n"

/-- The daemon's command line. -/
def programArguments (s : Settings) : List String :=
  [s.binary, "--bind", s.bind, "--python", s.python, "--worker-script", s.worker,
    "--model", s.modelDir, "--checkpoint", s.checkpoint, "--device", s.device,
    "--backend", s.backend, "--log", s.logFilter]

/-- What is printed before the owner comment. -/
def plistBefore (s : Settings) : List String :=
  ["<?xml version=\"1.0\" encoding=\"UTF-8\"?>\n",
    "<!DOCTYPE plist PUBLIC \"-//Apple//DTD PLIST 1.0//EN\" \"http://www.apple.com/DTDs/PropertyList-1.0.dtd\">\n",
    "<plist version=\"1.0\">\n",
    "<dict>\n",
    "  <key>Label</key>\n", stringElement "  " s.label,
    "  " ++ MARKER ++ "\n"]

/-- What is printed after the owner comment. -/
def plistAfter (s : Settings) : List String :=
  ["  <key>ProgramArguments</key>\n", "  <array>\n"] ++
    (programArguments s).map (stringElement "    ") ++
  ["  </array>\n",
    "  <key>EnvironmentVariables</key>\n", "  <dict>\n",
    "    <key>HF_HOME</key>\n", stringElement "    " s.hfHomeDir,
    "    <key>LAYAD_MEMORY_MB</key>\n", stringElement "    " s.memoryMb,
    "    <key>HF_HUB_OFFLINE</key>\n", "    <string>1</string>\n",
    "    <key>TRANSFORMERS_OFFLINE</key>\n", "    <string>1</string>\n",
    "  </dict>\n",
    "  <key>WorkingDirectory</key>\n", stringElement "  " s.root,
    "  <key>RunAtLoad</key>\n", "  <true/>\n",
    "  <key>StandardOutPath</key>\n", stringElement "  " s.stdoutLog,
    "  <key>StandardErrorPath</key>\n", stringElement "  " s.stderrLog,
    "  <key>KeepAlive</key>\n", "  <dict>\n", "    <key>SuccessfulExit</key>\n", "    <false/>\n",
    "  </dict>\n",
    "</dict>\n", "</plist>\n"]

/-- What `render_plist` prints once `plist_paths` lets it. -/
def renderPlist (s : Settings) : String :=
  String.join (plistBefore s ++ ("  " ++ ownerComment s.layadHomeDir ++ "\n") :: plistAfter s)

/-! ### Recognising a plist -/

/-- `grep -qF`: no pattern of the script holds a line break, so a line holds it if and only if
    the text does. -/
def grepF (pattern text : String) : Bool := decide (pattern.toList <:+: text.toList)

/-- The two searches of `is_ours`, for the worktree with that runtime home. -/
def owned (home text : String) : Bool := grepF MARKER text && grepF (ownerComment home) text

/-! ### What the values cannot hold -/

/-- An escaped value has no `<`, hence no beginning of an ownership comment. -/
theorem clear_xmlEscape (text : List Char) :
    Clear HOME_MARKER.toList (commandOutput (xmlEscape text)) = true := by
  have hmem : '<' ∉ commandOutput (xmlEscape text) := fun h =>
    not_mem_xmlEscape text ((List.rdropWhile_prefix _ _).subset h)
  exact clear_of_not_mem (by decide) hmem

/-- An element holds no owner comment. -/
theorem clear_stringElement (indent value : String)
    (h : Clear HOME_MARKER.toList indent.toList = true) :
    Clear HOME_MARKER.toList (stringElement indent value).toList = true := by
  have hvalue := clear_xmlEscape value.toList
  rw [← String.toList_ofList (l := commandOutput _)] at hvalue
  rw [stringElement, String.toList_append, String.toList_append, String.toList_append]
  exact clear_append (clear_append (clear_append h (by decide)) hvalue) (by decide)

/-- Nothing before the owner comment holds one. -/
theorem clear_plistBefore (s : Settings) :
    ∀ piece ∈ plistBefore s, Clear HOME_MARKER.toList piece.toList = true := by
  have hmarker : Clear HOME_MARKER.toList ("  " ++ MARKER ++ "\n").toList = true := by
    rw [String.toList_append, String.toList_append]
    exact clear_append (clear_append (by decide) (by decide)) (by decide)
  simp only [plistBefore, List.forall_mem_cons, List.not_mem_nil, false_implies, implies_true,
    and_true]
  exact ⟨by decide, by decide, by decide, by decide, by decide,
    clear_stringElement _ _ (by decide), hmarker⟩

/-- Nothing after the owner comment holds one. -/
theorem clear_plistAfter (s : Settings) :
    ∀ piece ∈ plistAfter s, Clear HOME_MARKER.toList piece.toList = true := by
  have hshort (value) := clear_stringElement "  " value (by decide)
  have hlong (value) := clear_stringElement "    " value (by decide)
  simp only [plistAfter, List.forall_mem_append, List.forall_mem_map, List.forall_mem_cons,
    List.not_mem_nil, false_implies, implies_true, and_true]
  refine ⟨⟨⟨by decide, by decide⟩, fun value _ => hlong value⟩, ?_⟩
  exact ⟨by decide, by decide, by decide, by decide, hlong _, by decide, hlong _, by decide,
    by decide, by decide, by decide, by decide, by decide, hshort _, by decide, by decide,
    by decide, hshort _, by decide, hshort _, by decide, by decide, by decide, by decide,
    by decide, by decide, by decide⟩

/-! ### Whose a rendered plist is -/

/-- A number is printed in digits. -/
theorem isDigit_of_mem_repr {n : Nat} {c : Char} (h : c ∈ (toString n).toList) :
    c.isDigit = true :=
  Nat.isDigit_of_mem_toDigits (by decide) (by decide) (Nat.toList_repr ▸ h)

/-- The count of bytes is cut off. -/
theorem firstWord_homeDigest (home : String) :
    firstWord (homeDigest home) = (toString (digest home)).toList := by
  have hne : ∀ c ∈ (toString (digest home)).toList, (c != ' ') = true := by
    intro c hc
    rw [bne_iff_ne]
    rintro rfl
    exact absurd (isDigit_of_mem_repr hc) (by decide)
  rw [firstWord, homeDigest, String.toList_append, String.toList_append, List.append_assoc,
    List.takeWhile_append_of_pos hne]
  exact List.append_nil _

/-- The owner comment holds the digest alone, without the count of bytes. -/
theorem toList_ownerComment (home : String) :
    (ownerComment home).toList =
      HOME_MARKER.toList ++ (toString (digest home)).toList ++ " -->".toList := by
  rw [ownerComment, String.toList_append, String.toList_append, firstWord_homeDigest,
    String.ofList_toList]

/-- One comment begins the other only if the digests are the same number. -/
theorem digest_eq_of_prefix {home home' : String} {rest : List Char}
    (h : (ownerComment home').toList <+: (ownerComment home).toList ++ rest) :
    digest home' = digest home := by
  have hdigits (d : Nat) (r : List Char) :
      ((toString d).toList ++ (" -->".toList ++ r)).takeWhile Char.isDigit =
        (toString d).toList := by
    rw [List.takeWhile_append_of_pos fun c hc => isDigit_of_mem_repr hc]
    exact List.append_nil _
  obtain ⟨r, h⟩ := h
  simp only [toList_ownerComment, List.append_assoc, List.append_right_inj] at h
  have h := congrArg (List.takeWhile Char.isDigit) h
  rw [hdigits, hdigits] at h
  have h : Nat.toDigits 10 (digest home') = Nat.toDigits 10 (digest home) := by
    rwa [← Nat.toList_repr, ← Nat.toList_repr]
  have h := congrArg (Nat.ofDigitChars 10 · 0) h
  simpa only [Nat.ofDigitChars_ten_toDigits] using h

/-- The owner comment tells homes apart by their digests only. -/
theorem ownerComment_eq_of_digest {home home' : String} (h : digest home' = digest home) :
    ownerComment home' = ownerComment home := by
  apply String.toList_injective
  rw [toList_ownerComment, toList_ownerComment, h]

/-- The plist holds the owner comment on a line of its own. -/
theorem toList_renderPlist (s : Settings) :
    (renderPlist s).toList = (plistBefore s).flatMap String.toList ++ ("  ".toList ++
      ((ownerComment s.layadHomeDir).toList ++
        ("\n".toList ++ (plistAfter s).flatMap String.toList))) := by
  simp only [renderPlist, String.toList_join, List.flatMap_append, List.flatMap_cons,
    String.toList_append, List.append_assoc]

/-- The comment's `<` is its first character and its only one. -/
theorem exists_toList_ownerComment (home : String) :
    ∃ rest, (ownerComment home).toList = '<' :: rest ∧ '<' ∉ rest := by
  refine ⟨HOME_MARKER.toList.tail ++ (toString (digest home)).toList ++ " -->".toList, ?_, ?_⟩
  · rw [toList_ownerComment]
    rfl
  · simp only [List.mem_append, not_or]
    exact ⟨⟨by decide, fun h => absurd (isDigit_of_mem_repr h) (by decide)⟩, by decide⟩

/-- A plist holds the owner comments of the homes with its own home's digest, and no others. -/
theorem ownerComment_infix_renderPlist_iff {s : Settings} {home : String} :
    (ownerComment home).toList <:+: (renderPlist s).toList ↔
      digest home = digest s.layadHomeDir := by
  have hprefix : HOME_MARKER.toList <+: (ownerComment home).toList := by
    rw [toList_ownerComment, List.append_assoc]
    exact List.prefix_append _ _
  have hclear {l : List Char} (h : Clear HOME_MARKER.toList l = true) :
      Clear (ownerComment home).toList l = true := clear_of_beginning hprefix h
  have hbefore := hclear (clear_flatMap (clear_plistBefore s))
  have hafter := hclear (clear_append (l := "\n".toList) (by decide)
    (clear_flatMap (clear_plistAfter s)))
  obtain ⟨rest, hcomment, hrest⟩ := exists_toList_ownerComment s.layadHomeDir
  obtain ⟨rest', hcomment', -⟩ := exists_toList_ownerComment home
  constructor
  · intro h
    rw [toList_renderPlist, infix_append_iff hbefore, infix_append_iff (hclear (by decide)),
      hcomment, List.cons_append, List.infix_cons_iff] at h
    rcases h with h | h
    · rw [← List.cons_append, ← hcomment] at h
      exact digest_eq_of_prefix h
    · -- a later occurrence would begin in the comment's tail or after the comment
      have htail : Clear (ownerComment home).toList rest = true :=
        clear_of_not_mem (by rw [hcomment']; rfl) hrest
      rw [infix_append_iff htail] at h
      exact absurd h (not_infix_of_clear (by rw [hcomment']; exact List.cons_ne_nil _ _) hafter)
  · intro h
    rw [toList_renderPlist, ownerComment_eq_of_digest h, ← List.append_assoc]
    exact ⟨_, _, List.append_assoc _ _ _⟩

/-- Every plist holds the marker. -/
theorem marker_infix_renderPlist (s : Settings) :
    MARKER.toList <:+: (renderPlist s).toList := by
  have hpiece : "  " ++ MARKER ++ "\n" ∈ plistBefore s := by simp [plistBefore]
  have hbefore : ("  " ++ MARKER ++ "\n").toList <:+: (plistBefore s).flatMap String.toList :=
    List.infix_of_mem_flatten (List.mem_map_of_mem hpiece)
  have hmarker : MARKER.toList <:+: ("  " ++ MARKER ++ "\n").toList := by
    rw [String.toList_append, String.toList_append]
    exact ⟨_, _, rfl⟩
  rw [toList_renderPlist]
  exact (hmarker.trans hbefore).trans (List.prefix_append _ _).isInfix

/-- **Whose a rendered plist is.**  It is recognised by the homes with its own home's digest
    and by no other. -/
theorem owned_renderPlist_iff {s : Settings} {home : String} :
    owned home (renderPlist s) = true ↔ digest home = digest s.layadHomeDir := by
  rw [owned, Bool.and_eq_true, grepF, grepF, decide_eq_true_iff, decide_eq_true_iff,
    ownerComment_infix_renderPlist_iff]
  exact and_iff_right (marker_infix_renderPlist s)

end Layad.Service
