import Layad.Json.Document

namespace Layad

/-!
# A JSON text says one thing

The grammar is unambiguous: two documents spelled by one text are the same
(`Document.eq_of_spells`).  Each rule is shown together with what follows the text, since
where a part of a text ends is known only from what comes after it: two texts of a rule that
start the same bytes are the same text.
-/

/-! ### Runs of bytes -/

/-- Bytes of one kind, up to the first of another, are the same in both readings. -/
theorem span_cancel {P : UInt8 → Prop} : ∀ {bs bs' t t' : List UInt8}, (∀ b ∈ bs, P b) →
    (∀ b ∈ bs', P b) → (∀ b ∈ t.head?, ¬P b) → (∀ b ∈ t'.head?, ¬P b) → bs ++ t = bs' ++ t' →
    bs = bs' ∧ t = t'
  | [], [], _, _, _, _, _, _, he => ⟨rfl, he⟩
  | [], b :: bs', t, _, _, h', ht, _, he => by
    rw [List.nil_append] at he
    exact absurd (h' b List.mem_cons_self) (ht b (by rw [he]; rfl))
  | b :: bs, [], _, t', h, _, _, ht', he => by
    rw [List.nil_append] at he
    exact absurd (h b List.mem_cons_self) (ht' b (by rw [← he]; rfl))
  | b :: bs, b' :: bs', t, t', h, h', ht, ht', he => by
    obtain ⟨rfl, hrest⟩ := List.cons.inj he
    obtain ⟨rfl, rfl⟩ := span_cancel (fun c hc => h c (List.mem_cons_of_mem _ hc))
      (fun c hc => h' c (List.mem_cons_of_mem _ hc)) ht ht' hrest
    exact ⟨rfl, rfl⟩

/-- The bytes of number literals. -/
def numberBytes : List UInt8 :=
  [0x2d, 0x2b, 0x2e, 0x65, 0x45, 0x30, 0x31, 0x32, 0x33, 0x34, 0x35, 0x36, 0x37, 0x38, 0x39]

/-- White space. -/
def BlankByte (b : UInt8) : Prop := b = 0x20 ∨ b = 0x09 ∨ b = 0x0a ∨ b = 0x0d

instance : DecidablePred BlankByte := fun b =>
  inferInstanceAs (Decidable (b = 0x20 ∨ b = 0x09 ∨ b = 0x0a ∨ b = 0x0d))

/-- What may follow a value: no byte of a number. -/
def Follows (t : List UInt8) : Prop := ∀ b ∈ t.head?, b ∉ numberBytes

/-- What may follow a value and white space. -/
def Delimits (t : List UInt8) : Prop := ∀ b ∈ t.head?, b ∉ numberBytes ∧ ¬BlankByte b

/-- White space is no part of a number. -/
theorem not_numberByte_of_blank {b : UInt8} (h : BlankByte b) : b ∉ numberBytes := by
  rcases h with rfl | rfl | rfl | rfl
  all_goals decide

/-- A byte of no number that is no white space ends a value. -/
theorem Delimits.cons {b : UInt8} {t : List UInt8} (hn : b ∉ numberBytes) (hb : ¬BlankByte b) :
    Delimits (b :: t) := by
  intro c hc
  obtain rfl := Option.some.inj hc
  exact ⟨hn, hb⟩

/-- A comma does. -/
theorem Delimits.comma (t : List UInt8) : Delimits (0x2c :: t) :=
  .cons (by decide) (by decide)

/-- A colon does. -/
theorem Delimits.colon (t : List UInt8) : Delimits (0x3a :: t) :=
  .cons (by decide) (by decide)

/-- A closing bracket does. -/
theorem Delimits.bracket (t : List UInt8) : Delimits (0x5d :: t) :=
  .cons (by decide) (by decide)

/-- A closing brace does. -/
theorem Delimits.brace (t : List UInt8) : Delimits (0x7d :: t) :=
  .cons (by decide) (by decide)

/-- White space before what delimits a value follows it. -/
theorem Delimits.follows {post t : List UInt8} (hpost : Blank post) (ht : Delimits t) :
    Follows (post ++ t) := by
  cases post with
  | nil => exact fun b hb => (ht b hb).1
  | cons c rest =>
    intro b hb
    obtain rfl := Option.some.inj hb
    exact not_numberByte_of_blank (hpost c List.mem_cons_self)

/-! ### Strings -/

/-- An encoded character can be told from what follows it. -/
theorem utf8EncodeChar_cancel {c c' : Char} {t t' : List UInt8}
    (h : String.utf8EncodeChar c ++ t = String.utf8EncodeChar c' ++ t') : c = c' ∧ t = t' := by
  have hdecode : ∀ (c : Char) (t : List UInt8),
      ByteArray.utf8DecodeChar? (String.utf8EncodeChar c ++ t).toByteArray 0 = some c := by
    intro c t
    rw [List.toByteArray_append]
    exact ByteArray.utf8DecodeChar?_utf8EncodeChar_append
  have hc : some c = some c' := by rw [← hdecode c t, h, hdecode c' t']
  obtain rfl := Option.some.inj hc
  exact ⟨rfl, List.append_cancel_left h⟩

/-- A byte of its own tells the character. -/
theorem raw_cancel {c d : Char} {t t' : List UInt8} {b : UInt8}
    (hd : String.utf8EncodeChar d = [b]) (h : String.utf8EncodeChar c ++ t = b :: t') : c = d :=
  (utf8EncodeChar_cancel (h.trans (by rw [hd]; rfl : b :: t' = String.utf8EncodeChar d ++ t'))).1

/-- An escaped code unit can be told from what follows it. -/
theorem SpellsUnit.cancel {n n' : Nat} {bs bs' t t' : List UInt8} (h : SpellsUnit n bs)
    (h' : SpellsUnit n' bs') (he : bs ++ t = bs' ++ t') : n = n' ∧ t = t' := by
  obtain ⟨a, b, c, d, rfl, va, vb, vc, vd, ha, hb, hc, hd, rfl⟩ := h
  obtain ⟨a', b', c', d', rfl, va', vb', vc', vd', ha', hb', hc', hd', rfl⟩ := h'
  simp only [List.cons_append, List.nil_append, List.cons.injEq, true_and] at he
  obtain ⟨rfl, rfl, rfl, rfl, rfl⟩ := he
  obtain rfl := Option.some.inj (ha.symm.trans ha')
  obtain rfl := Option.some.inj (hb.symm.trans hb')
  obtain rfl := Option.some.inj (hc.symm.trans hc')
  obtain rfl := Option.some.inj (hd.symm.trans hd')
  exact ⟨rfl, rfl⟩

/-- An escaped code unit begins with a backslash and a `u`. -/
theorem SpellsUnit.head {n : Nat} {bs : List UInt8} (h : SpellsUnit n bs) :
    ∃ rest, bs = 0x5c :: 0x75 :: rest := by
  obtain ⟨a, b, c, d, rfl, -⟩ := h
  exact ⟨_, rfl⟩

/-- A character that is spelled by more than itself starts with a backslash. -/
theorem SpellsChar.head {c : Char} {bs : List UInt8} (h : SpellsChar c bs) :
    (bs = String.utf8EncodeChar c ∧ c ≠ '"' ∧ c ≠ '\\') ∨ ∃ rest, bs = 0x5c :: rest := by
  cases h with
  | raw _ hq hb => exact .inl ⟨rfl, hq, hb⟩
  | short _ => exact .inr ⟨_, rfl⟩
  | unit h =>
    obtain ⟨rest, rfl⟩ := h.head
    exact .inr ⟨_, rfl⟩
  | pair _ _ _ h _ =>
    obtain ⟨rest, rfl⟩ := h.head
    exact .inr ⟨_, rfl⟩

/-- A short escape stands for one character. -/
theorem shortEscapes_inj {c c' : Char} {b : UInt8} (h : (c, b) ∈ shortEscapes)
    (h' : (c', b) ∈ shortEscapes) : c = c' := by
  have hall : ∀ m ∈ shortEscapes, ∀ m' ∈ shortEscapes, m.2 = m'.2 → m.1 = m'.1 := by decide
  exact hall _ h _ h' rfl

/-- No short escape is a `u`. -/
theorem not_short_u {c : Char} : (c, (0x75 : UInt8)) ∉ shortEscapes := by
  have hall : ∀ m ∈ shortEscapes, m.2 ≠ 0x75 := by decide
  exact fun h => hall _ h rfl

/-- A character is no surrogate. -/
theorem toNat_not_surrogate (c : Char) : c.toNat < 0xd800 ∨ 0xe000 ≤ c.toNat := by
  rcases c.valid with h | h
  · exact .inl h
  · exact .inr h.1

/-- A spelled character can be told from what follows it. -/
theorem SpellsChar.cancel {c c' : Char} {bs bs' t t' : List UInt8} (h : SpellsChar c bs)
    (h' : SpellsChar c' bs') (he : bs ++ t = bs' ++ t') : c = c' ∧ t = t' := by
  have hslash : String.utf8EncodeChar '\\' = [0x5c] := by decide
  cases h with
  -- a character of its own and an escape differ in the first byte
  | raw _ _ hb =>
    rcases h'.head with ⟨rfl, -⟩ | ⟨rest, rfl⟩
    · exact utf8EncodeChar_cancel he
    · exact absurd (raw_cancel hslash he) hb
  | @short b hs =>
    cases h' with
    | raw _ _ hb => exact absurd (raw_cancel hslash he.symm) hb
    | short hs' =>
      simp only [List.cons_append, List.nil_append, List.cons.injEq, true_and] at he
      obtain ⟨rfl, rfl⟩ := he
      exact ⟨shortEscapes_inj hs hs', rfl⟩
    | unit hu | pair _ _ _ hu _ =>
      obtain ⟨rest, rfl⟩ := hu.head
      simp only [List.cons_append, List.nil_append, List.cons.injEq, true_and] at he
      exact absurd (he.1 ▸ hs) not_short_u
  -- a unit that stands alone is no surrogate, so it does not begin a pair
  | unit hu =>
    cases h' with
    | raw _ _ hb =>
      obtain ⟨rest, rfl⟩ := hu.head
      exact absurd (raw_cancel hslash he.symm) hb
    | short hs' =>
      obtain ⟨rest, rfl⟩ := hu.head
      simp only [List.cons_append, List.nil_append, List.cons.injEq, true_and] at he
      exact absurd (he.1 ▸ hs') not_short_u
    | unit hu' =>
      obtain ⟨hn, rfl⟩ := hu.cancel hu' he
      exact ⟨Char.toNat_inj.mp hn, rfl⟩
    | pair hh _ _ hu' _ =>
      rw [List.append_assoc] at he
      obtain ⟨rfl, -⟩ := hu.cancel hu' he
      have := toNat_not_surrogate c
      omega
  | pair hh hl hc hu hlow =>
    cases h' with
    | raw _ _ hb =>
      obtain ⟨rest, rfl⟩ := hu.head
      exact absurd (raw_cancel hslash he.symm) hb
    | short hs' =>
      obtain ⟨rest, rfl⟩ := hu.head
      simp only [List.cons_append, List.nil_append, List.cons.injEq, true_and] at he
      exact absurd (he.1 ▸ hs') not_short_u
    | unit hu' =>
      rw [List.append_assoc] at he
      obtain ⟨rfl, -⟩ := hu.cancel hu' he
      have := toNat_not_surrogate c'
      omega
    | pair hh' hl' hc' hu' hlow' =>
      rw [List.append_assoc, List.append_assoc] at he
      obtain ⟨rfl, he⟩ := hu.cancel hu' he
      obtain ⟨rfl, rfl⟩ := hlow.cancel hlow' he
      exact ⟨Char.toNat_inj.mp (hc.trans hc'.symm), rfl⟩

/-- The quotation mark that ends a string is none of its characters. -/
theorem SpellsChar.ne_quote {c : Char} {bs t t' : List UInt8} (h : SpellsChar c bs) :
    bs ++ t ≠ 0x22 :: t' := by
  intro he
  rcases h.head with ⟨rfl, hq, -⟩ | ⟨rest, rfl⟩
  · exact hq (raw_cancel (by decide) he)
  · cases he

/-- Characters up to a quotation mark can be told from what follows it. -/
theorem SpellsChars.cancel {cs cs' : List Char} {bs bs' t t' : List UInt8}
    (h : SpellsChars cs bs) (h' : SpellsChars cs' bs') (he : bs ++ 0x22 :: t = bs' ++ 0x22 :: t') :
    cs = cs' ∧ t = t' := by
  induction h generalizing cs' bs' with
  | nil =>
    cases h' with
    | nil => exact ⟨rfl, (List.cons.inj he).2⟩
    | cons hc hs =>
      rw [List.append_assoc] at he
      exact absurd he.symm hc.ne_quote
  | cons hc hs ih =>
    cases h' with
    | nil =>
      rw [List.append_assoc] at he
      exact absurd he hc.ne_quote
    | cons hc' hs' =>
      rw [List.append_assoc, List.append_assoc] at he
      obtain ⟨rfl, he⟩ := hc.cancel hc' he
      obtain ⟨rfl, rfl⟩ := ih hs' he
      exact ⟨rfl, rfl⟩

/-- A string can be told from what follows it. -/
theorem SpellsString.cancel {s s' : String} {bs bs' t t' : List UInt8} (h : SpellsString s bs)
    (h' : SpellsString s' bs') (he : bs ++ t = bs' ++ t') : s = s' ∧ t = t' := by
  obtain ⟨content, rfl, hs⟩ := h
  obtain ⟨content', rfl, hs'⟩ := h'
  simp only [List.cons_append, List.append_assoc, List.nil_append, List.cons.injEq,
    true_and] at he
  obtain ⟨hs, rfl⟩ := hs.cancel hs' he
  exact ⟨String.toList_injective hs, rfl⟩

/-! ### Numbers -/

/-- The characters of a number have the bytes of numbers. -/
theorem mem_numberBytes {c : Char} (hc : Json.isNumberChar c = true) :
    ∀ b ∈ String.utf8EncodeChar c, b ∈ numberBytes := by
  have hall : (String.utf8EncodeChar c).all numberBytes.contains = true :=
    forall_ascii (P := fun c => Json.isNumberChar c = true →
      (String.utf8EncodeChar c).all numberBytes.contains = true) (by decide)
      (Json.ascii_of_isNumberChar hc) hc
  exact fun b hb => List.contains_iff_mem.mp (List.all_eq_true.mp hall b hb)

/-- The bytes of a text tell the text. -/
theorem utf8_injective {s s' : String} (h : utf8 s = utf8 s') : s = s' :=
  String.toByteArray_inj.mp (ByteArray.ext (Array.toList_inj.mp h))

/-- A literal ends where something else than a number follows. -/
theorem literal_cancel {l l' : String} {t t' : List UInt8}
    (hl : ∀ c ∈ l.toList, Json.isNumberChar c = true)
    (hl' : ∀ c ∈ l'.toList, Json.isNumberChar c = true) (ht : Follows t) (ht' : Follows t')
    (he : utf8 l ++ t = utf8 l' ++ t') : l = l' ∧ t = t' := by
  have hbytes : ∀ {l : String}, (∀ c ∈ l.toList, Json.isNumberChar c = true) →
      ∀ b ∈ utf8 l, b ∈ numberBytes := by
    intro l hl b hb
    rw [utf8_eq] at hb
    obtain ⟨c, hc, hb⟩ := List.mem_flatMap.mp hb
    exact mem_numberBytes (hl c hc) b hb
  obtain ⟨hbs, rfl⟩ := span_cancel (hbytes hl) (hbytes hl') ht ht' he
  exact ⟨utf8_injective hbs, rfl⟩

/-- A digit may stand in a number. -/
theorem isNumberChar_of_isDigit {c : Char} (h : c.isDigit = true) :
    Json.isNumberChar c = true := by
  rw [Json.isNumberChar, h, Bool.true_or]

/-- A real literal has the characters of a number. -/
theorem IsReal.isNumberChar {literal : String} (h : IsReal literal) :
    ∀ c ∈ literal.toList, Json.isNumberChar c = true := by
  obtain ⟨sign, whole, fraction, exponent, he, hsign, hwhole, -, hfraction, hexponent, -⟩ := h
  intro c hc
  simp only [he, List.mem_append] at hc
  rcases hc with ((hc | hc) | hc) | hc
  · rcases hsign with rfl | rfl
    · cases hc
    · obtain rfl := List.mem_singleton.mp hc
      decide
  · exact isNumberChar_of_isDigit (hwhole.2 c hc)
  · rcases hfraction with rfl | ⟨ds, rfl, hds⟩
    · cases hc
    · rcases List.mem_cons.mp hc with rfl | hc
      · decide
      · exact isNumberChar_of_isDigit (hds.2 c hc)
  · rcases hexponent with rfl | ⟨e, sgn, ds, rfl, he, hsgn, hds⟩
    · cases hc
    · rcases List.mem_append.mp hc with hc | hc
      · rcases List.mem_cons.mp hc with rfl | hc
        · rcases he with rfl | rfl
          all_goals decide
        · rcases hsgn with rfl | rfl | rfl
          · cases hc
          all_goals
            obtain rfl := List.mem_singleton.mp hc
            decide
      · exact isNumberChar_of_isDigit (hds.2 c hc)

/-- A literal with a fraction or an exponent shows it. -/
theorem IsReal.mark {literal : String} (h : IsReal literal) :
    ∃ c ∈ literal.toList, c = '.' ∨ c = 'e' ∨ c = 'E' := by
  obtain ⟨sign, whole, fraction, exponent, he, -, -, -, hfraction, hexponent, hne⟩ := h
  rw [he]
  rcases hne with hne | hne
  · obtain ⟨ds, rfl, -⟩ := hfraction.resolve_left hne
    exact ⟨'.', by simp, .inl rfl⟩
  · obtain ⟨e, sgn, ds, rfl, he, -⟩ := hexponent.resolve_left hne
    exact ⟨e, by simp, .inr he⟩

/-- A natural number is written in digits. -/
theorem isDigit_of_mem_repr {n : Nat} {c : Char} (hc : c ∈ n.repr.toList) : c.isDigit = true := by
  rw [Nat.toList_repr] at hc
  exact Nat.isDigit_of_mem_toDigits (by decide) (by decide) hc

/-- Different natural numbers are written differently. -/
theorem repr_injective {n n' : Nat} (h : n.repr = n'.repr) : n = n' := by
  have hdigits : Nat.toDigits 10 n = Nat.toDigits 10 n' := by
    rw [← Nat.toList_repr, h, Nat.toList_repr]
  rw [← Nat.ofDigitChars_ten_toDigits (n := n), hdigits, Nat.ofDigitChars_ten_toDigits]

/-- A negative integer is written with a sign. -/
theorem toString_negSucc (n : Nat) :
    (toString (Int.negSucc n)).toList = '-' :: (n + 1).repr.toList := by
  simp [toString, Int.repr]

/-- The sign of a printed integer. -/
theorem head_toString (i : Int) : (toString i).toList.head? = some '-' ↔ i < 0 := by
  cases i with
  | ofNat n =>
    refine iff_of_false (fun h => ?_) (by simp)
    have hmem : '-' ∈ n.repr.toList := List.mem_of_mem_head? h
    exact absurd (isDigit_of_mem_repr hmem) (by decide)
  | negSucc n =>
    rw [toString_negSucc]
    exact iff_of_true rfl (Int.negSucc_lt_zero n)

/-- Different integers are written differently. -/
theorem toString_injective {i i' : Int} (h : toString i = toString i') : i = i' := by
  have hsign : i < 0 ↔ i' < 0 := by rw [← head_toString, ← head_toString, h]
  cases i with
  | ofNat n =>
    cases i' with
    | ofNat n' => exact congrArg Int.ofNat (repr_injective h)
    | negSucc n' => exact absurd (hsign.mpr (Int.negSucc_lt_zero n')) (by simp)
  | negSucc n =>
    cases i' with
    | ofNat n' => exact absurd (hsign.mp (Int.negSucc_lt_zero n)) (by simp)
    | negSucc n' =>
      have hlist := congrArg String.toList h
      rw [toString_negSucc, toString_negSucc] at hlist
      have hn := repr_injective (String.toList_injective (List.cons.inj hlist).2)
      exact congrArg Int.negSucc (Nat.succ.inj hn)

/-- No integer is written as the negative zero. -/
theorem toString_ne_negZero (i : Int) : toString i ≠ "-0" := by
  intro h
  have hneg : i < 0 := (head_toString i).mp (by rw [h]; rfl)
  cases i with
  | ofNat n => exact absurd hneg (by simp)
  | negSucc n =>
    have hlist := congrArg String.toList h
    rw [toString_negSucc] at hlist
    have hzero : (n + 1).repr = Nat.repr 0 :=
      String.toList_injective ((List.cons.inj hlist).2.trans (by decide))
    exact absurd (repr_injective hzero) (by omega)

/-- An integer literal is no real one. -/
theorem IsReal.ne_toString {literal : String} (h : IsReal literal) (i : Int) :
    literal ≠ toString i := by
  rintro rfl
  obtain ⟨c, hc, hmark⟩ := h.mark
  have hplain : c.isDigit = true ∨ c = '-' := by
    cases i with
    | ofNat n => exact .inl (isDigit_of_mem_repr hc)
    | negSucc n =>
      rw [toString_negSucc] at hc
      exact (List.mem_cons.mp hc).elim .inr fun hc => .inl (isDigit_of_mem_repr hc)
  rcases hmark with rfl | rfl | rfl
  all_goals exact absurd hplain (by decide)

/-- The negative zero is no real literal. -/
theorem IsReal.ne_negZero {literal : String} (h : IsReal literal) : literal ≠ "-0" := by
  rintro rfl
  obtain ⟨c, hc, hmark⟩ := h.mark
  have hc : c = '-' ∨ c = '0' := by simpa using hc
  rcases hc with rfl | rfl
  all_goals exact absurd hmark (by decide)

/-! ### Documents -/

/-- What a value starts with, other than white space. -/
def Solid (bs : List UInt8) : Prop := ∃ b rest, bs = b :: rest ∧ ¬BlankByte b

/-- A string begins and ends with a quotation mark. -/
theorem SpellsString.solid {s : String} {bs : List UInt8} (h : SpellsString s bs) : Solid bs := by
  obtain ⟨content, rfl, -⟩ := h
  exact ⟨0x22, _, rfl, by decide⟩

/-- White space around a text ends where the text starts, and where it is delimited. -/
theorem Padded.cancel {text text' : List UInt8 → Prop} {same : Prop}
    (hsolid : ∀ bs, text bs → Solid bs) (hsolid' : ∀ bs, text' bs → Solid bs)
    (hcancel : ∀ bs bs' t t', text bs → text' bs' → Follows t → Follows t' →
      bs ++ t = bs' ++ t' → same ∧ t = t')
    {bs bs' t t' : List UInt8} (h : Padded text bs) (h' : Padded text' bs') (ht : Delimits t)
    (ht' : Delimits t') (he : bs ++ t = bs' ++ t') : same ∧ t = t' := by
  obtain ⟨pre, mid, post, rfl, hpre, hmid, hpost⟩ := h
  obtain ⟨pre', mid', post', rfl, hpre', hmid', hpost'⟩ := h'
  have hstart : ∀ {mid rest : List UInt8}, Solid mid → ∀ b ∈ (mid ++ rest).head?, ¬BlankByte b := by
    rintro mid rest ⟨b, others, rfl, hb⟩ c hc
    obtain rfl := Option.some.inj hc
    exact hb
  simp only [List.append_assoc] at he
  obtain ⟨-, he⟩ := span_cancel (P := BlankByte) hpre hpre' (hstart (hsolid _ hmid))
    (hstart (hsolid' _ hmid')) he
  obtain ⟨hsame, he⟩ := hcancel _ _ _ _ hmid hmid' (ht.follows hpost) (ht'.follows hpost') he
  obtain ⟨-, he⟩ := span_cancel (P := BlankByte) hpost hpost' (fun b hb => (ht b hb).2)
    (fun b hb => (ht' b hb).2) he
  exact ⟨hsame, he⟩

/-- A string with white space around it can be told from what follows it. -/
theorem Padded.cancel_string {s s' : String} {bs bs' t t' : List UInt8}
    (h : Padded (SpellsString s) bs) (h' : Padded (SpellsString s') bs') (ht : Delimits t)
    (ht' : Delimits t') (he : bs ++ t = bs' ++ t') : s = s' ∧ t = t' :=
  Padded.cancel (fun _ => SpellsString.solid) (fun _ => SpellsString.solid)
    (fun _ _ _ _ hs hs' _ _ he => hs.cancel hs' he) h h' ht ht' he

/-- White space alone is no padded text. -/
theorem Blank.ne_padded {text : List UInt8 → Prop} (hsolid : ∀ bs, text bs → Solid bs)
    {bs bs' t t' : List UInt8} (h : Blank bs) (h' : Padded text bs') {close : UInt8}
    (hclose : ¬BlankByte close) (hstart : ∀ mid rest, text mid → mid ≠ close :: rest) :
    bs ++ close :: t ≠ bs' ++ t' := by
  intro he
  obtain ⟨pre, mid, post, rfl, hpre, hmid, -⟩ := h'
  obtain ⟨b, rest, rfl, hb⟩ := hsolid _ hmid
  simp only [List.append_assoc, List.cons_append] at he
  have hhead : ∀ {b : UInt8} {rest : List UInt8}, ¬BlankByte b →
      ∀ c ∈ (b :: rest).head?, ¬BlankByte c := by
    intro b rest hb c hc
    obtain rfl := Option.some.inj hc
    exact hb
  obtain ⟨-, he⟩ := span_cancel (P := BlankByte) h hpre (hhead hclose) (hhead hb) he
  obtain ⟨rfl, -⟩ := List.cons.inj he
  exact hstart _ _ hmid rfl

namespace Document

/-- What a document is, told by its first byte. -/
inductive Kind where
  | null
  | yes
  | no
  | number
  | str
  | arr
  | obj
  deriving DecidableEq

/-- The kind of a document. -/
def kind : Document → Kind
  | .null => .null
  | .bool true => .yes
  | .bool false => .no
  | .int _ | .negZero | .real _ => .number
  | .str _ => .str
  | .arr _ => .arr
  | .obj _ => .obj

/-- The kind a first byte tells. -/
def kindOfByte (b : UInt8) : Kind :=
  if b = 0x6e then .null else if b = 0x74 then .yes else if b = 0x66 then .no
  else if b = 0x22 then .str else if b = 0x5b then .arr else if b = 0x7b then .obj else .number

/-- The literal of a number. -/
def Numeral : Document → String → Prop
  | .int i, literal => literal = toString i
  | .negZero, literal => literal = "-0"
  | .real text, literal => literal = text ∧ IsReal text
  | _, _ => False

/-- A literal tells its document. -/
theorem Numeral.inj {d d' : Document} {literal : String} (h : d.Numeral literal)
    (h' : d'.Numeral literal) : d = d' := by
  cases d with
  | int i =>
    cases d' with
    | int i' => exact congrArg Document.int (toString_injective (h.symm.trans h'))
    | negZero => exact absurd (h.symm.trans h') (toString_ne_negZero i)
    | real text => exact absurd (h'.1.symm.trans h) (h'.2.ne_toString i)
    | _ => exact h'.elim
  | negZero =>
    cases d' with
    | int i' => exact absurd (h'.symm.trans h) (toString_ne_negZero i')
    | negZero => rfl
    | real text => exact absurd (h'.1.symm.trans h) h'.2.ne_negZero
    | _ => exact h'.elim
  | real text =>
    cases d' with
    | int i' => exact absurd (h.1.symm.trans h') (h.2.ne_toString i')
    | negZero => exact absurd (h.1.symm.trans h') h.2.ne_negZero
    | real text' => exact congrArg Document.real (h.1.symm.trans h'.1)
    | _ => exact h'.elim
  | _ => exact h.elim

/-- A number is spelled by its literal. -/
theorem Spells.numeral {d : Document} {bs : List UInt8} (h : d.Spells bs)
    (hk : d.kind = .number) : ∃ literal, d.Numeral literal ∧ bs = utf8 literal ∧
      ∀ c ∈ literal.toList, Json.isNumberChar c = true := by
  cases d with
  | int i => exact ⟨toString i, rfl, h, fun c hc => Json.isNumberChar_toString hc⟩
  | negZero => exact ⟨"-0", rfl, h, List.all_eq_true.mp (by decide)⟩
  | real text => exact ⟨text, ⟨rfl, h.1⟩, h.2, h.1.isNumberChar⟩
  | bool b => cases b <;> cases hk
  | _ => cases hk

/-- A literal is not empty. -/
theorem Numeral.ne_empty {d : Document} {literal : String} (h : d.Numeral literal) :
    literal.toList ≠ [] := by
  cases d with
  | int i =>
    cases i with
    | ofNat n =>
      rw [show literal = n.repr from h, Nat.toList_repr]
      exact Nat.toDigits_ne_nil
    | negSucc n =>
      rw [show literal = toString (Int.negSucc n) from h, toString_negSucc]
      exact List.cons_ne_nil _ _
  | negZero =>
    rw [show literal = "-0" from h]
    decide
  | real text =>
    obtain ⟨c, hc, -⟩ := h.2.mark
    rw [h.1]
    exact List.ne_nil_of_mem hc
  | _ => exact h.elim

/-- The first bytes of values. -/
def startBytes : List UInt8 := [0x6e, 0x74, 0x66, 0x22, 0x5b, 0x7b] ++ numberBytes

/-- The first byte of a text tells its kind. -/
theorem Spells.head {d : Document} {bs : List UInt8} (h : d.Spells bs) :
    ∃ b rest, bs = b :: rest ∧ kindOfByte b = d.kind ∧ b ∈ startBytes := by
  -- a number begins with a byte of numbers, any other document with its own
  by_cases hk : d.kind = .number
  · obtain ⟨literal, hn, rfl, hchars⟩ := h.numeral hk
    obtain ⟨c, cs, hcs⟩ := List.exists_cons_of_ne_nil hn.ne_empty
    have hc := hchars c (hcs ▸ List.mem_cons_self)
    obtain ⟨b, rest, hb⟩ : ∃ b rest, String.utf8EncodeChar c = b :: rest :=
      List.exists_cons_of_ne_nil (by simp)
    have hmem : b ∈ numberBytes := mem_numberBytes hc b (hb ▸ List.mem_cons_self)
    refine ⟨b, rest ++ cs.flatMap String.utf8EncodeChar, ?_, ?_, List.mem_append_right _ hmem⟩
    · rw [utf8_eq, hcs, List.flatMap_cons, hb, List.cons_append]
    · have hall : numberBytes.all (kindOfByte · = .number) = true := by decide
      rw [of_decide_eq_true (List.all_eq_true.mp hall b hmem), hk]
  · cases d with
    | null => exact ⟨0x6e, _, h, rfl, by decide⟩
    | bool b =>
      cases b with
      | true => exact ⟨0x74, _, h, rfl, by decide⟩
      | false => exact ⟨0x66, _, h, rfl, by decide⟩
    | str s =>
      obtain ⟨content, rfl, -⟩ := h
      exact ⟨0x22, _, rfl, rfl, by decide⟩
    | arr items =>
      obtain ⟨content, rfl, -⟩ := h
      exact ⟨0x5b, _, rfl, rfl, by decide⟩
    | obj members =>
      obtain ⟨content, rfl, -⟩ := h
      exact ⟨0x7b, _, rfl, rfl, by decide⟩
    | _ => exact absurd rfl hk

/-- No document begins or ends with white space. -/
theorem Spells.solid {d : Document} {bs : List UInt8} (h : d.Spells bs) : Solid bs := by
  obtain ⟨b, rest, hb, -, hstart⟩ := h.head
  have hall : startBytes.all (¬BlankByte ·) = true := by decide
  exact ⟨b, rest, hb, of_decide_eq_true (List.all_eq_true.mp hall b hstart)⟩

/-- The first byte tells the kind of a document. -/
theorem Spells.kind_eq {d d' : Document} {bs bs' t t' : List UInt8} (h : d.Spells bs)
    (h' : d'.Spells bs') (he : bs ++ t = bs' ++ t') : d'.kind = d.kind := by
  obtain ⟨b, rest, rfl, hk, -⟩ := h.head
  obtain ⟨b', rest', rfl, hk', -⟩ := h'.head
  obtain ⟨rfl, -⟩ := List.cons.inj he
  rw [← hk, ← hk']

/-- A number can be told from what follows it. -/
theorem number_cancel {d d' : Document} {bs bs' t t' : List UInt8} (h : d.Spells bs)
    (h' : d'.Spells bs') (hk : d.kind = .number) (ht : Follows t) (ht' : Follows t')
    (he : bs ++ t = bs' ++ t') : d = d' ∧ t = t' := by
  obtain ⟨literal, hn, rfl, hchars⟩ := h.numeral hk
  obtain ⟨literal', hn', rfl, hchars'⟩ := h'.numeral ((h.kind_eq h' he).trans hk)
  obtain ⟨rfl, rfl⟩ := literal_cancel hchars hchars' ht ht' he
  exact ⟨hn.inj hn', rfl⟩

/-- A value starts with no byte that ends an array. -/
theorem Spells.ne_bracket {d : Document} {bs rest : List UInt8} (h : d.Spells bs) :
    bs ≠ 0x5d :: rest := by
  rintro rfl
  obtain ⟨b, others, he, -, hstart⟩ := h.head
  obtain ⟨rfl, -⟩ := List.cons.inj he
  exact absurd hstart (by decide)

end Document

/-- No string begins with a brace. -/
theorem SpellsString.ne_brace {s : String} {bs rest : List UInt8} (h : SpellsString s bs) :
    bs ≠ 0x7d :: rest := by
  rintro rfl
  obtain ⟨content, he, -⟩ := h
  cases he

namespace Document

/-- What comes after the first of some items or members: nothing, or a comma and the rest. -/
def More {α : Type} (spells : List α → List UInt8 → Prop) (rest : List α) (others : List UInt8) :
    Prop :=
  (rest = [] ∧ others = []) ∨ ∃ tail, others = 0x2c :: tail ∧ rest ≠ [] ∧ spells rest tail

/-- What follows an item, up to the closing bracket, ends it. -/
theorem More.delimits_cons {α : Type} {spells : List α → List UInt8 → Prop} {rest : List α}
    {others : List UInt8} (h : More spells rest others) {close : UInt8} {t : List UInt8}
    (hclose : Delimits (close :: t)) : Delimits (others ++ close :: t) := by
  rcases h with ⟨-, rfl⟩ | ⟨tail, rfl, -⟩
  · exact hclose
  · exact .comma _

/-- Items are one and then more. -/
theorem SpellsItems.head {item : Document} {rest : List Document} {bs : List UInt8}
    (h : SpellsItems (item :: rest) bs) : ∃ first others, bs = first ++ others ∧
      Padded item.Spells first ∧ More SpellsItems rest others := by
  cases rest with
  | nil => exact ⟨bs, [], (List.append_nil bs).symm, h, .inl ⟨rfl, rfl⟩⟩
  | cons next rest =>
    obtain ⟨first, others, rfl, hitem, hrest⟩ := h
    exact ⟨first, _, rfl, hitem, .inr ⟨others, rfl, List.cons_ne_nil _ _, hrest⟩⟩

/-- Members are one and then more. -/
theorem SpellsMembers.head {key : String} {value : Document} {rest : List (String × Document)}
    {bs : List UInt8} (h : SpellsMembers ((key, value) :: rest) bs) :
    ∃ name text others, bs = name ++ (0x3a :: (text ++ others)) ∧ Padded (SpellsString key) name ∧
      Padded value.Spells text ∧ More SpellsMembers rest others := by
  cases rest with
  | nil =>
    obtain ⟨name, text, rfl, hkey, hvalue⟩ := h
    exact ⟨name, text, [], by rw [List.append_nil], hkey, hvalue, .inl ⟨rfl, rfl⟩⟩
  | cons next rest =>
    obtain ⟨name, text, others, rfl, hkey, hvalue, hrest⟩ := h
    exact ⟨name, text, 0x2c :: others, by simp, hkey, hvalue,
      .inr ⟨others, rfl, List.cons_ne_nil _ _, hrest⟩⟩

mutual

/-- A text that starts the same bytes is the same text, of the same document. -/
theorem Spells.cancel : ∀ (d : Document) {d' : Document} {bs bs' t t' : List UInt8},
    d.Spells bs → d'.Spells bs' → Follows t → Follows t' → bs ++ t = bs' ++ t' →
    d = d' ∧ t = t'
  -- documents of one kind: the first byte tells it
  | .null, d', bs, bs', t, t', h, h', ht, ht', he => by
    have hk := h.kind_eq h' he
    cases d' with
    | null =>
      obtain rfl : bs = bs' := Eq.trans h (Eq.symm h')
      exact ⟨rfl, List.append_cancel_left he⟩
    | bool b => cases b <;> cases hk
    | _ => cases hk
  | .bool b, d', bs, bs', t, t', h, h', ht, ht', he => by
    have hk := h.kind_eq h' he
    cases d' with
    | bool b' =>
      cases b <;> cases b'
      all_goals try (cases hk; done)
      all_goals
        obtain rfl : bs = bs' := Eq.trans h (Eq.symm h')
        exact ⟨rfl, List.append_cancel_left he⟩
    | _ => cases b <;> cases hk
  | .int i, d', bs, bs', t, t', h, h', ht, ht', he =>
    number_cancel (d := .int i) h h' rfl ht ht' he
  | .negZero, d', bs, bs', t, t', h, h', ht, ht', he =>
    number_cancel (d := .negZero) h h' rfl ht ht' he
  | .real text, d', bs, bs', t, t', h, h', ht, ht', he =>
    number_cancel (d := .real text) h h' rfl ht ht' he
  | .str s, d', bs, bs', t, t', h, h', ht, ht', he => by
    have hk := h.kind_eq h' he
    cases d' with
    | str s' =>
      obtain ⟨rfl, rfl⟩ := SpellsString.cancel h h' he
      exact ⟨rfl, rfl⟩
    | bool b => cases b <;> cases hk
    | _ => cases hk
  -- up to the closing bracket, by the items
  | .arr items, d', bs, bs', t, t', h, h', ht, ht', he => by
    have hk := h.kind_eq h' he
    cases d' with
    | arr items' =>
      obtain ⟨content, rfl, hitems⟩ := h
      obtain ⟨content', rfl, hitems'⟩ := h'
      simp only [List.cons_append, List.append_assoc, List.nil_append, List.cons.injEq,
        true_and] at he
      obtain ⟨rfl, rfl⟩ := SpellsItems.cancel items hitems hitems' he
      exact ⟨rfl, rfl⟩
    | bool b => cases b <;> cases hk
    | _ => cases hk
  | .obj members, d', bs, bs', t, t', h, h', ht, ht', he => by
    have hk := h.kind_eq h' he
    cases d' with
    | obj members' =>
      obtain ⟨content, rfl, hmembers⟩ := h
      obtain ⟨content', rfl, hmembers'⟩ := h'
      simp only [List.cons_append, List.append_assoc, List.nil_append, List.cons.injEq,
        true_and] at he
      obtain ⟨rfl, rfl⟩ := SpellsMembers.cancel members hmembers hmembers' he
      exact ⟨rfl, rfl⟩
    | bool b => cases b <;> cases hk
    | _ => cases hk

/-- The same of the items of an array, up to the closing bracket. -/
theorem SpellsItems.cancel : ∀ (items : List Document) {items' : List Document}
    {bs bs' t t' : List UInt8}, SpellsItems items bs → SpellsItems items' bs' →
    bs ++ 0x5d :: t = bs' ++ 0x5d :: t' → items = items' ∧ t = t'
  | [], [], bs, bs', t, t', h, h', he => by
    obtain ⟨-, he⟩ := span_cancel (P := BlankByte) h h' (fun b hb => ((Delimits.bracket t) b hb).2)
      (fun b hb => ((Delimits.bracket t') b hb).2) he
    exact ⟨rfl, (List.cons.inj he).2⟩
  -- no item begins with the bracket
  | [], item' :: rest', bs, bs', t, t', h, h', he => by
    obtain ⟨first', others', rfl, hitem', -⟩ := h'.head
    rw [List.append_assoc] at he
    exact absurd he (Blank.ne_padded (fun _ => Spells.solid) h hitem'
      (by decide) fun _ _ hs => hs.ne_bracket)
  | item :: rest, [], bs, bs', t, t', h, h', he => by
    obtain ⟨first, others, rfl, hitem, -⟩ := h.head
    rw [List.append_assoc] at he
    exact absurd he.symm (Blank.ne_padded (fun _ => Spells.solid) h' hitem
      (by decide) fun _ _ hs => hs.ne_bracket)
  -- an item, then a comma or the bracket
  | item :: rest, item' :: rest', bs, bs', t, t', h, h', he => by
    obtain ⟨first, others, rfl, hitem, hothers⟩ := h.head
    obtain ⟨first', others', rfl, hitem', hothers'⟩ := h'.head
    rw [List.append_assoc, List.append_assoc] at he
    obtain ⟨rfl, he⟩ := Padded.cancel (fun _ => Spells.solid) (fun _ => Spells.solid)
      (fun _ _ _ _ hs hs' ht ht' he => Spells.cancel item hs hs' ht ht' he) hitem hitem'
      (hothers.delimits_cons (.bracket t)) (hothers'.delimits_cons (.bracket t')) he
    rcases hothers with ⟨rfl, rfl⟩ | ⟨tail, rfl, -, htail⟩
    · rcases hothers' with ⟨rfl, rfl⟩ | ⟨tail', rfl, -, -⟩
      · exact ⟨rfl, (List.cons.inj he).2⟩
      · cases he
    · rcases hothers' with ⟨rfl, rfl⟩ | ⟨tail', rfl, -, htail'⟩
      · cases he
      · obtain ⟨rfl, rfl⟩ := SpellsItems.cancel rest htail htail' (List.cons.inj he).2
        exact ⟨rfl, rfl⟩

/-- The same of the members of an object, up to the closing brace. -/
theorem SpellsMembers.cancel : ∀ (members : List (String × Document))
    {members' : List (String × Document)} {bs bs' t t' : List UInt8},
    SpellsMembers members bs → SpellsMembers members' bs' →
    bs ++ 0x7d :: t = bs' ++ 0x7d :: t' → members = members' ∧ t = t'
  | [], [], bs, bs', t, t', h, h', he => by
    obtain ⟨-, he⟩ := span_cancel (P := BlankByte) h h' (fun b hb => ((Delimits.brace t) b hb).2)
      (fun b hb => ((Delimits.brace t') b hb).2) he
    exact ⟨rfl, (List.cons.inj he).2⟩
  -- no key begins with the brace
  | [], (key', value') :: rest', bs, bs', t, t', h, h', he => by
    obtain ⟨name', text', others', rfl, hkey', -, -⟩ := h'.head
    rw [List.append_assoc] at he
    exact absurd he (Blank.ne_padded (fun _ => SpellsString.solid) h hkey'
      (by decide) fun _ _ hs => hs.ne_brace)
  | (key, value) :: rest, [], bs, bs', t, t', h, h', he => by
    obtain ⟨name, text, others, rfl, hkey, -, -⟩ := h.head
    rw [List.append_assoc] at he
    exact absurd he.symm (Blank.ne_padded (fun _ => SpellsString.solid) h' hkey
      (by decide) fun _ _ hs => hs.ne_brace)
  -- a key, its value, then a comma or the brace
  | (key, value) :: rest, (key', value') :: rest', bs, bs', t, t', h, h', he => by
    obtain ⟨name, text, others, rfl, hkey, hvalue, hothers⟩ := h.head
    obtain ⟨name', text', others', rfl, hkey', hvalue', hothers'⟩ := h'.head
    simp only [List.append_assoc, List.cons_append] at he
    obtain ⟨rfl, he⟩ := hkey.cancel_string hkey' (.colon _) (.colon _) he
    obtain ⟨rfl, he⟩ := Padded.cancel (fun _ => Spells.solid) (fun _ => Spells.solid)
      (fun _ _ _ _ hs hs' ht ht' he => Spells.cancel value hs hs' ht ht' he) hvalue hvalue'
      (hothers.delimits_cons (.brace t)) (hothers'.delimits_cons (.brace t')) (List.cons.inj he).2
    rcases hothers with ⟨rfl, rfl⟩ | ⟨tail, rfl, -, htail⟩
    · rcases hothers' with ⟨rfl, rfl⟩ | ⟨tail', rfl, -, -⟩
      · exact ⟨rfl, (List.cons.inj he).2⟩
      · cases he
    · rcases hothers' with ⟨rfl, rfl⟩ | ⟨tail', rfl, -, htail'⟩
      · cases he
      · obtain ⟨rfl, rfl⟩ := SpellsMembers.cancel rest htail htail' (List.cons.inj he).2
        exact ⟨rfl, rfl⟩

end

/-- **A JSON text says one thing.** -/
theorem eq_of_spells {d d' : Document} {bs : List UInt8} (h : Padded d.Spells bs)
    (h' : Padded d'.Spells bs) : d = d' := by
  have hend : Delimits [] := fun _ hb => nomatch hb
  exact (Padded.cancel (fun _ => Spells.solid) (fun _ => Spells.solid)
    (fun _ _ _ _ hs hs' ht ht' he => Spells.cancel d hs hs' ht ht' he) h h' hend hend rfl).1

end Document

end Layad
