import Layad.Python.Worker
import Layad.Worker.Session

namespace Layad

/-!
# A request as the worker reads it

The daemon writes a request compactly and ends it with a newline.  The worker decodes these
bytes to one line, strips it and measures it: what is left is the text of the frame, as long
as the bytes that were sent (`Worker.readLine_writeFrame`).
-/

namespace PyStr

/-- A character comes back from its code point. -/
theorem toChar?_ofChar (c : Char) : toChar? (ofChar c) = some c := by
  have h : (ofChar c).val.isValidChar := c.valid
  rw [toChar?, dif_pos h]
  rfl

/-- A text without surrogates is encoded as UTF-8. -/
theorem encodeReplace_map (cs : List Char) :
    encodeReplace (cs.map ofChar) = cs.flatMap String.utf8EncodeChar := by
  rw [encodeReplace, List.flatMap_map]
  exact List.flatMap_congr fun c _ => by rw [toChar?_ofChar]; rfl

/-- The bytes of a text are decoded to it. -/
theorem decode_utf8 (s : String) : decode (utf8 s) = some (ofString s) := by
  have h : (⟨(utf8 s).toArray⟩ : ByteArray) = s.toByteArray := by simp [utf8]
  rw [decode, h, String.fromUTF8?, dif_pos s.isValidUTF8]
  rfl

/-- What stands between two characters that are no white space survives `strip`. -/
theorem strip_between {a b : CodePoint} (ha : isSpace a = false) (hb : isSpace b = false)
    (s : PyStr) {t : PyStr} (ht : ∀ n ∈ t, isSpace n = true) :
    strip (a :: s ++ [b] ++ t) = a :: s ++ [b] := by
  have hhead : (a :: s ++ [b] ++ t).dropWhile isSpace = a :: s ++ [b] ++ t := by
    simp [ha]
  have htail : (t.reverse ++ b :: (a :: s).reverse).dropWhile isSpace =
      b :: (a :: s).reverse := by
    rw [List.dropWhile_append_of_pos (by simpa using ht), List.dropWhile_cons, hb]
    rfl
  rw [strip, hhead, List.reverse_append, List.reverse_append, List.reverse_singleton,
    List.singleton_append, htail, List.reverse_cons, List.reverse_reverse]

end PyStr

namespace Json

/-- The text of an object stands between braces. -/
theorem strip_text {members : List (String × Json)} :
    PyStr.strip ((text (.obj members) ++ ['\n']).map PyStr.ofChar) =
      (text (.obj members)).map PyStr.ofChar := by
  have := PyStr.strip_between (a := PyStr.ofChar '{') (b := PyStr.ofChar '}') (by decide)
    (by decide) ((textMembers members).map PyStr.ofChar) (t := [PyStr.ofChar '\n'])
    (fun n hn => by rw [List.mem_singleton.mp hn]; rfl)
  simpa [text] using this

end Json

namespace Worker

/-- **A frame arrives as it was sent**: as one line, whose text is that of the value once the
    line is stripped, and as long as its bytes. -/
theorem readLine_writeFrame {host : Host} (hvec : host.toVec = Json.compact)
    (members : List (String × Json)) (hnum : (Json.obj members).Numeric) :
    (∀ b ∈ host.toVec (.obj members), b ≠ newline) ∧
    ∃ raw, PyStr.decode (writeFrame host (.obj members)) = some raw ∧
      raw.strip = (Json.text (.obj members)).map PyStr.ofChar ∧
      raw.strip.encodeReplace = Json.compact (.obj members) := by
  refine ⟨fun b hb => ?_, (Json.text (.obj members) ++ ['\n']).map PyStr.ofChar, ?_,
    Json.strip_text, ?_⟩
  · -- a newline would come from a control character
    rw [hvec, Json.compact_eq] at hb
    rintro rfl
    exact absurd ((Json.printable_text _ hnum).le_of_mem hb) (by decide)
  · have : writeFrame host (.obj members) =
        utf8 (String.ofList (Json.text (.obj members) ++ ['\n'])) := by
      rw [writeFrame, hvec, Json.compact_eq, utf8_ofList, List.flatMap_append]
      rfl
    rw [this, PyStr.decode_utf8, PyStr.ofString, String.toList_ofList]
  · rw [Json.strip_text, PyStr.encodeReplace_map, Json.compact_eq]

end Worker

end Layad
