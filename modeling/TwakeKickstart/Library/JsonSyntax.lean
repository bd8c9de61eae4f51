import TwakeKickstart.Library.Decimal
import TwakeKickstart.Library.KeyOrder

namespace TwakeKickstart.Library

/-! Reading the texts that `JSON.stringify` writes. -/

namespace JsonSyntax

/-- The values of JSON: nothing is undefined, and the keys of an object are
different. -/
inductive IsJson : JsValue → Prop
  | null : IsJson .null
  | bool (b : Bool) : IsJson (.bool b)
  | num (n : Int) : IsJson (.num n)
  | str (s : String) : IsJson (.str s)
  | arr {items : List JsValue} (all : ∀ item ∈ items, IsJson item) :
      IsJson (.arr items)
  | obj {fields : JsObject} (distinct : (fields.map Prod.fst).Nodup)
      (all : ∀ field ∈ fields, IsJson field.2) : IsJson (.obj fields)

mutual
/-- The text of a value with the fields in their given order. -/
def plain : JsValue → List Char
  | .undefined => []
  | .null => "null".toList
  | .bool b => if b then "true".toList else "false".toList
  | .num n => (toString n).toList
  | .str s => (quoted s).toList
  | .arr items => '[' :: ([','].intercalate (plainItems items) ++ [']'])
  | .obj fields =>
      '\x7b' :: ([','].intercalate (plainFields fields) ++ ['\x7d'])

def plainItems : List JsValue → List (List Char)
  | [] => []
  | item :: rest => plain item :: plainItems rest

def plainFields : JsObject → List (List Char)
  | [] => []
  | (key, value) :: rest =>
      ((quoted key).toList ++ ':' :: plain value) :: plainFields rest
end

/-! The reader. Texts with white space between the tokens, and numbers with a
fraction or an exponent, are not read. -/

def hexDigit (c : Char) : Option Nat :=
  if c.isDigit then some (c.toNat - 48)
  else if 'a' ≤ c ∧ c ≤ 'f' then some (c.toNat - 87)
  else if 'A' ≤ c ∧ c ≤ 'F' then some (c.toNat - 55)
  else none

def hexValue : List Char → Option Nat
  | [] => some 0
  | c :: rest =>
      (hexDigit c).bind fun digit =>
        (hexValue rest).map (digit * 16 ^ rest.length + ·)

/-- The characters that stand for one behind a backslash. -/
def escapes : List (Char × Char) :=
  [('"', '"'), ('\\', '\\'), ('/', '/'), ('b', Char.ofNat 8),
    ('f', Char.ofNat 12), ('n', '\n'), ('r', '\r'), ('t', '\t')]

-- The escapes of surrogates are not read.
def readEscape : List Char → Option (Char × List Char)
  | [] => none
  | c :: rest =>
      if c = 'u' then
        ((hexValue (rest.take 4)).filter fun code =>
            (rest.take 4).length = 4 ∧ code.isValidChar).map fun code =>
          (Char.ofNat code, rest.drop 4)
      else (escapes.lookup c).map fun escape => (escape, rest)

def readChar : List Char → Option (Char × List Char)
  | [] => none
  | c :: rest =>
      if c = '\\' then readEscape rest
      else if c.toNat < 32 then none
      else some (c, rest)

/-- The rest of a string behind its opening quote. -/
def readString : Nat → List Char → Option (List Char × List Char)
  | 0, _ => none
  | fuel + 1, text =>
      if text.head? = some '"' then some ([], text.tail)
      else
        (readChar text).bind fun first =>
          (readString fuel first.2).map fun others =>
            (first.1 :: others.1, others.2)

def readDigits (text : List Char) : Option (Nat × List Char) :=
  let digits := text.takeWhile Char.isDigit
  if digits = [] ∨ digits.head? = some '0' ∧ digits.length ≠ 1 then none
  else some (Decimal.value digits, text.drop digits.length)

def readNumber (text : List Char) : Option (JsValue × List Char) :=
  if text.head? = some '-' then
    (readDigits text.tail).map fun result => (.num (-result.1), result.2)
  else (readDigits text).map fun result => (.num result.1, result.2)

def readWord (word : String) (value : JsValue) (text : List Char) :
    Option (JsValue × List Char) :=
  if word.toList.isPrefixOf text then some (value, text.drop word.length)
  else none

def readAtom (text : List Char) : Option (JsValue × List Char) :=
  (readWord "null" .null text).or
    ((readWord "true" (.bool true) text).or
      ((readWord "false" (.bool false) text).or (readNumber text)))

mutual
def readValue : Nat → List Char → Option (JsValue × List Char)
  | 0, _ => none
  | fuel + 1, text =>
      if text.head? = some '"' then
        (readString fuel text.tail).map fun result =>
          (.str (String.ofList result.1), result.2)
      else if text.head? = some '[' then
        if text.tail.head? = some ']' then some (.arr [], text.tail.tail)
        else (readItems fuel text.tail).map fun result =>
          (.arr result.1, result.2)
      else if text.head? = some '\x7b' then
        if text.tail.head? = some '\x7d' then some (.obj [], text.tail.tail)
        else (readFields fuel text.tail).map fun result =>
          (.obj result.1, result.2)
      else readAtom text

def readItems : Nat → List Char → Option (List JsValue × List Char)
  | 0, _ => none
  | fuel + 1, text =>
      (readValue fuel text).bind fun item =>
        if item.2.head? = some ',' then
          (readItems fuel item.2.tail).map fun others =>
            (item.1 :: others.1, others.2)
        else if item.2.head? = some ']' then some ([item.1], item.2.tail)
        else none

def readFields : Nat → List Char → Option (JsObject × List Char)
  | 0, _ => none
  | fuel + 1, text =>
      if text.head? = some '"' then
        (readString fuel text.tail).bind fun key =>
          if key.2.head? = some ':' then
            (readValue fuel key.2.tail).bind fun value =>
              let field := (String.ofList key.1, value.1)
              if value.2.head? = some ',' then
                (readFields fuel value.2.tail).map fun others =>
                  (field :: others.1, others.2)
              else if value.2.head? = some '\x7d' then
                some ([field], value.2.tail)
              else none
          else none
      else none
end

/-- The value of a JSON text, with the fields in the order of the text. -/
def parse (text : String) : Option JsValue :=
  (readValue (text.toList.length + 1) text.toList).bind fun result =>
    if result.2 = [] then some result.1 else none

/-! Strings. -/

theorem hexValue_control {n : Nat} (h : n < 32) :
    hexValue ['0', '0', Nat.digitChar (n / 16), Nat.digitChar (n % 16)] =
      some n := by
  have hall : ∀ n : Fin 32, hexValue ['0', '0', Nat.digitChar (n.val / 16),
      Nat.digitChar (n.val % 16)] = some n.val := by decide
  exact hall ⟨n, h⟩

theorem readChar_escape {c e : Char} {rest : List Char} (hu : c ≠ 'u')
    (h : escapes.lookup c = some e) :
    readChar ('\\' :: c :: rest) = some (e, rest) := by
  rw [readChar, if_pos rfl, readEscape, if_neg hu, h]
  rfl

theorem readChar_escaped (c : Char) (rest : List Char) :
    readChar (escaped c ++ rest) = some (c, rest) := by
  have hcode (n : Nat) (h : c.toNat = n) : c = Char.ofNat n := by
    rw [← h, Char.ofNat_toNat]
  unfold escaped
  split
  · rename_i h
    rcases h with rfl | rfl
    · exact readChar_escape (by decide) rfl
    · exact readChar_escape (by decide) rfl
  · rename_i hplain
    split
    · rename_i h
      rw [hcode 8 h]
      exact readChar_escape (by decide) rfl
    · split
      · rename_i h
        rw [hcode 9 h]
        exact readChar_escape (by decide) rfl
      · split
        · rename_i h
          rw [hcode 10 h]
          exact readChar_escape (by decide) rfl
        · split
          · rename_i h
            rw [hcode 12 h]
            exact readChar_escape (by decide) rfl
          · split
            · rename_i h
              rw [hcode 13 h]
              exact readChar_escape (by decide) rfl
            · split
              · rename_i h
                have hvalid : c.toNat.isValidChar := c.valid
                simp only [List.cons_append, List.nil_append]
                rw [readChar, if_pos rfl, readEscape, if_pos rfl]
                simp only [List.take_succ_cons, List.take_zero,
                  List.drop_succ_cons, List.drop_zero, hexValue_control h]
                rw [Option.filter_some, if_pos (by simpa using hvalid),
                  Option.map_some, Char.ofNat_toNat]
              · rename_i h
                rw [List.singleton_append, readChar,
                  if_neg (fun hc => hplain (.inr hc)), if_neg h]

theorem escaped_head_ne (c : Char) : (escaped c).head? ≠ some '"' := by
  unfold escaped
  repeat' split
  all_goals simp_all

theorem escaped_length_pos (c : Char) : 0 < (escaped c).length := by
  unfold escaped
  repeat' split
  all_goals simp

theorem readString_escaped {s rest : List Char} {fuel : Nat}
    (enough : (s.flatMap escaped).length < fuel) :
    readString fuel (s.flatMap escaped ++ '"' :: rest) = some (s, rest) := by
  induction s generalizing fuel with
  | nil =>
      obtain ⟨fuel, rfl⟩ := Nat.exists_eq_succ_of_ne_zero
        (Nat.ne_of_gt enough)
      rw [readString]
      rfl
  | cons c s ih =>
      obtain ⟨fuel, rfl⟩ := Nat.exists_eq_succ_of_ne_zero
        (Nat.ne_of_gt (Nat.zero_lt_of_lt enough))
      rw [List.flatMap_cons, List.length_append] at enough
      have hlength := escaped_length_pos c
      have hne : (escaped c ++ (s.flatMap escaped ++ '"' :: rest)).head? ≠
          some '"' := by
        rw [List.head?_append_of_ne_nil _ (List.ne_nil_of_length_pos hlength)]
        exact escaped_head_ne c
      rw [List.flatMap_cons, List.append_assoc, readString, if_neg hne,
        readChar_escaped, Option.bind_some, ih (by omega)]
      rfl

/-! Numbers. -/

/-- No digit follows. -/
def NoDigit (rest : List Char) : Prop :=
  ∀ c, rest.head? = some c → c.isDigit = false

theorem noDigit_cons {c : Char} (h : c.isDigit = false) (rest : List Char) :
    NoDigit (c :: rest) := by
  intro d hd
  rw [List.head?_cons, Option.some.injEq] at hd
  rw [← hd]
  exact h

theorem readDigits_toDigits (n : Nat) {rest : List Char}
    (stop : NoDigit rest) :
    readDigits (Nat.toDigits 10 n ++ rest) = some (n, rest) := by
  have hdigits : ∀ c ∈ Nat.toDigits 10 n, c.isDigit = true :=
    fun c hc => Nat.isDigit_of_mem_toDigits (by decide) (by decide) hc
  have hrest : rest.takeWhile Char.isDigit = [] := by
    cases rest with
    | nil => rfl
    | cons c others =>
        rw [List.takeWhile_cons_of_neg]
        rw [stop c rfl]
        exact Bool.false_ne_true
  have htake : (Nat.toDigits 10 n ++ rest).takeWhile Char.isDigit =
      Nat.toDigits 10 n := by
    rw [List.takeWhile_append_of_pos hdigits, hrest, List.append_nil]
  have hnumeral : ¬ (Nat.toDigits 10 n = [] ∨
      (Nat.toDigits 10 n).head? = some '0' ∧
        (Nat.toDigits 10 n).length ≠ 1) := by
    rintro (hnil | ⟨hzero, hlength⟩)
    · exact Nat.toDigits_ne_nil hnil
    · rcases Nat.eq_zero_or_pos n with rfl | hpositive
      · exact hlength rfl
      · exact (Decimal.numeral_toDigits hpositive).lead hzero
  unfold readDigits
  rw [htake, if_neg hnumeral, List.drop_left, Decimal.value,
    Nat.ofDigitChars_ten_toDigits]

theorem head?_toDigits_ne (n : Nat) {c : Char} (h : c.isDigit = false)
    (rest : List Char) : (Nat.toDigits 10 n ++ rest).head? ≠ some c := by
  rw [List.head?_append_of_ne_nil _ Nat.toDigits_ne_nil]
  intro hhead
  have hdigit := Nat.isDigit_of_mem_toDigits (by decide) (by decide)
    (List.mem_of_head? hhead)
  rw [h] at hdigit
  cases hdigit

theorem readNumber_text (n : Int) {rest : List Char} (stop : NoDigit rest) :
    readNumber ((toString n).toList ++ rest) = some (.num n, rest) := by
  cases n with
  | ofNat n =>
      change readNumber ((Nat.repr n).toList ++ rest) = _
      rw [Nat.toList_repr, readNumber,
        if_neg (head?_toDigits_ne n (by decide) rest),
        readDigits_toDigits n stop]
      rfl
  | negSucc n =>
      change readNumber (("-" ++ Nat.repr (n + 1)).toList ++ rest) = _
      rw [String.toList_append, Nat.toList_repr]
      change readNumber ('-' :: (Nat.toDigits 10 (n + 1) ++ rest)) = _
      rw [readNumber, List.head?_cons, if_pos rfl, List.tail_cons,
        readDigits_toDigits (n + 1) stop]
      rfl

theorem head?_num (n : Int) : ∃ c rest, (toString n).toList = c :: rest ∧
    (c = '-' ∨ c.isDigit = true) := by
  cases n with
  | ofNat n =>
      obtain ⟨c, rest, hdigits⟩ := List.exists_cons_of_ne_nil
        (Nat.toDigits_ne_nil : Nat.toDigits 10 n ≠ [])
      refine ⟨c, rest, ?_, .inr ?_⟩
      · change (Nat.repr n).toList = _
        rw [Nat.toList_repr, hdigits]
      · have hmem : c ∈ Nat.toDigits 10 n := by
          rw [hdigits]
          exact List.mem_cons_self
        exact Nat.isDigit_of_mem_toDigits (by decide) (by decide) hmem
  | negSucc n =>
      refine ⟨'-', Nat.toDigits 10 (n + 1), ?_, .inl rfl⟩
      change ("-" ++ Nat.repr (n + 1)).toList = _
      rw [String.toList_append, Nat.toList_repr]
      rfl

theorem readWord_cons_ne {word : String} {value : JsValue} {c first : Char}
    {rest others : List Char} (hword : word.toList = first :: others)
    (h : c ≠ first) : readWord word value (c :: rest) = none := by
  rw [readWord, hword, if_neg]
  rw [List.isPrefixOf_cons_cons, Bool.and_eq_true, beq_iff_eq]
  exact fun hboth => h hboth.1.symm

theorem readWord_append (word : String) (value : JsValue) (rest : List Char) :
    readWord word value (word.toList ++ rest) = some (value, rest) := by
  rw [readWord, if_pos (by simp), ← String.length_toList, List.drop_left]

/-! Values. -/

/-- The text of the value is read back, whatever stands behind it. -/
def Reads (value : JsValue) : Prop :=
  ∀ fuel rest, (plain value).length < fuel → NoDigit rest →
    readValue fuel (plain value ++ rest) = some (value, rest)

theorem readValue_atom {fuel : Nat} {c : Char} {rest : List Char}
    (hquote : c ≠ '"') (hbracket : c ≠ '[') (hbrace : c ≠ '\x7b') :
    readValue (fuel + 1) (c :: rest) = readAtom (c :: rest) := by
  rw [readValue]
  simp [hquote, hbracket, hbrace]

theorem reads_atom {value : JsValue}
    (head : ∀ c, (plain value).head? = some c →
      c ≠ '"' ∧ c ≠ '[' ∧ c ≠ '\x7b') (nonempty : plain value ≠ [])
    (h : ∀ rest, NoDigit rest →
      readAtom (plain value ++ rest) = some (value, rest)) : Reads value := by
  intro fuel rest enough stop
  obtain ⟨fuel, rfl⟩ := Nat.exists_eq_succ_of_ne_zero
    (Nat.ne_of_gt (Nat.zero_lt_of_lt enough))
  obtain ⟨c, others, hplain⟩ := List.exists_cons_of_ne_nil nonempty
  obtain ⟨hquote, hbracket, hbrace⟩ := head c (by rw [hplain]; rfl)
  have hatom := h rest stop
  rw [hplain, List.cons_append] at hatom ⊢
  rw [readValue_atom hquote hbracket hbrace, hatom]

theorem reads_null : Reads .null := by
  apply reads_atom
  · intro c hc
    cases hc
    decide
  · decide
  · intro rest _
    rw [readAtom]
    change (readWord "null" .null ("null".toList ++ rest)).or _ = _
    rw [readWord_append]
    rfl

theorem reads_bool (b : Bool) : Reads (.bool b) := by
  cases b with
  | true =>
      apply reads_atom
      · intro c hc
        cases hc
        decide
      · decide
      · intro rest _
        change readAtom ("true".toList ++ rest) = _
        have hnull : readWord "null" .null ("true".toList ++ rest) = none :=
          readWord_cons_ne rfl (by decide)
        rw [readAtom, hnull, readWord_append]
        rfl
  | false =>
      apply reads_atom
      · intro c hc
        cases hc
        decide
      · decide
      · intro rest _
        change readAtom ("false".toList ++ rest) = _
        have hnull : readWord "null" .null ("false".toList ++ rest) = none :=
          readWord_cons_ne rfl (by decide)
        have htrue : readWord "true" (.bool true) ("false".toList ++ rest) =
            none := readWord_cons_ne rfl (by decide)
        rw [readAtom, hnull, htrue, readWord_append]
        rfl

theorem reads_num (n : Int) : Reads (.num n) := by
  obtain ⟨c, others, htext, hc⟩ := head?_num n
  have hne {d : Char} (hdash : d ≠ '-') (hdigit : d.isDigit = false) :
      c ≠ d := by
    rintro rfl
    rcases hc with rfl | hc
    · exact hdash rfl
    · rw [hdigit] at hc
      cases hc
  have hplain : plain (.num n) = (toString n).toList := by rw [plain]
  apply reads_atom
  · intro d hd
    rw [hplain, htext, List.head?_cons, Option.some.injEq] at hd
    rw [← hd]
    exact ⟨hne (by decide) (by decide), hne (by decide) (by decide),
      hne (by decide) (by decide)⟩
  · rw [hplain, htext]
    exact List.cons_ne_nil _ _
  · intro rest stop
    have hnumber := readNumber_text n stop
    rw [hplain]
    rw [htext, List.cons_append] at hnumber ⊢
    have hword {word : String} {value : JsValue} {first : Char}
        {tail : List Char} (hfirst : word.toList = first :: tail)
        (hdash : first ≠ '-') (hdigit : first.isDigit = false) :
        readWord word value (c :: (others ++ rest)) = none :=
      readWord_cons_ne hfirst (hne hdash hdigit)
    rw [readAtom, hword rfl (by decide) (by decide),
      hword rfl (by decide) (by decide), hword rfl (by decide) (by decide),
      hnumber]
    rfl

theorem toList_quoted (s : String) :
    (quoted s).toList = '"' :: (s.toList.flatMap escaped ++ ['"']) := by
  rw [quoted, String.toList_ofList, List.cons_append]

theorem readString_quoted {s : String} {fuel : Nat} {rest : List Char}
    (enough : (quoted s).toList.length ≤ fuel + 1) :
    readString fuel ((quoted s).toList ++ rest).tail =
      some (s.toList, rest) := by
  rw [toList_quoted] at enough ⊢
  rw [List.length_cons, List.length_append, List.length_singleton] at enough
  rw [List.cons_append, List.tail_cons, List.append_assoc]
  exact readString_escaped (by omega)

theorem reads_str (s : String) : Reads (.str s) := by
  intro fuel rest enough _
  have hplain : plain (.str s) = (quoted s).toList := by rw [plain]
  rw [hplain] at enough ⊢
  obtain ⟨fuel, rfl⟩ := Nat.exists_eq_succ_of_ne_zero
    (Nat.ne_of_gt (Nat.zero_lt_of_lt enough))
  have hhead : ((quoted s).toList ++ rest).head? = some '"' := by
    rw [toList_quoted]
    rfl
  rw [readValue, if_pos hhead, readString_quoted (by omega), Option.map_some,
    String.ofList_toList]

theorem intercalate_length_cons {first second : List Char}
    {rest : List (List Char)} :
    ([','].intercalate (first :: second :: rest)).length =
      first.length + 1 + ([','].intercalate (second :: rest)).length := by
  rw [List.intercalate_cons_cons]
  simp only [List.length_append, List.length_singleton]

theorem plainItems_eq_map (items : List JsValue) :
    plainItems items = items.map plain := by
  induction items with
  | nil => rfl
  | cons item rest ih => rw [plainItems, ih, List.map_cons]

theorem plainFields_eq_map (fields : JsObject) :
    plainFields fields = fields.map fun field =>
      (quoted field.1).toList ++ ':' :: plain field.2 := by
  induction fields with
  | nil => rfl
  | cons field rest ih => rw [plainFields, ih, List.map_cons]

theorem plain_arr (items : List JsValue) : plain (.arr items) =
    '[' :: ([','].intercalate (plainItems items) ++ [']']) := by
  rw [plain]

theorem plain_obj (fields : JsObject) : plain (.obj fields) =
    '\x7b' :: ([','].intercalate (plainFields fields) ++ ['\x7d']) := by
  rw [plain]

theorem readItems_plain {items : List JsValue} (nonempty : items ≠ [])
    (all : ∀ item ∈ items, Reads item) {fuel : Nat} {rest : List Char}
    (enough : ([','].intercalate (plainItems items)).length + 1 < fuel) :
    readItems fuel ([','].intercalate (plainItems items) ++ ']' :: rest) =
      some (items, rest) := by
  induction items generalizing fuel with
  | nil => exact absurd rfl nonempty
  | cons item others ih =>
      rw [List.forall_mem_cons] at all
      obtain ⟨fuel, rfl⟩ := Nat.exists_eq_succ_of_ne_zero
        (Nat.ne_of_gt (Nat.zero_lt_of_lt enough))
      rw [readItems]
      cases others with
      | nil =>
          rw [plainItems, plainItems, List.intercalate_singleton] at enough ⊢
          rw [all.1 fuel _ (by omega) (noDigit_cons (by decide) rest),
            Option.bind_some]
          rfl
      | cons second others =>
          have hothers := @ih (List.cons_ne_nil _ _) all.2 fuel
          rw [plainItems] at hothers
          rw [plainItems, plainItems, intercalate_length_cons] at enough
          rw [plainItems, plainItems, List.intercalate_cons_cons,
            List.append_assoc, List.append_assoc, List.singleton_append,
            all.1 fuel _ (by omega) (noDigit_cons (by decide) _),
            Option.bind_some, List.head?_cons, if_pos rfl, List.tail_cons,
            hothers (by omega)]
          rfl

theorem readFields_plain {fields : JsObject} (nonempty : fields ≠ [])
    (all : ∀ field ∈ fields, Reads field.2) {fuel : Nat} {rest : List Char}
    (enough : ([','].intercalate (plainFields fields)).length + 1 < fuel) :
    readFields fuel ([','].intercalate (plainFields fields) ++
        '\x7d' :: rest) = some (fields, rest) := by
  induction fields generalizing fuel with
  | nil => exact absurd rfl nonempty
  | cons field others ih =>
      obtain ⟨key, value⟩ := field
      rw [List.forall_mem_cons] at all
      have hvalue : Reads value := all.1
      obtain ⟨fuel, rfl⟩ := Nat.exists_eq_succ_of_ne_zero
        (Nat.ne_of_gt (Nat.zero_lt_of_lt enough))
      have hhead (tail : List Char) :
          ((quoted key).toList ++ tail).head? = some '"' := by
        rw [toList_quoted]
        rfl
      rw [readFields]
      cases others with
      | nil =>
          rw [plainFields, plainFields, List.intercalate_singleton] at enough ⊢
          rw [List.length_append, List.length_cons] at enough
          rw [List.append_assoc, List.cons_append, if_pos (hhead _),
            readString_quoted (by omega), Option.bind_some, List.head?_cons,
            if_pos rfl, List.tail_cons,
            hvalue fuel _ (by omega) (noDigit_cons (by decide) rest),
            Option.bind_some, String.ofList_toList]
          rfl
      | cons second others =>
          have hothers := @ih (List.cons_ne_nil _ _) all.2 fuel
          rw [plainFields] at hothers
          rw [plainFields, plainFields, intercalate_length_cons,
            List.length_append, List.length_cons] at enough
          rw [plainFields, plainFields, List.intercalate_cons_cons,
            List.append_assoc, List.append_assoc, List.append_assoc,
            List.singleton_append, List.cons_append, if_pos (hhead _),
            readString_quoted (by omega), Option.bind_some, List.head?_cons,
            if_pos rfl, List.tail_cons,
            hvalue fuel _ (by omega) (noDigit_cons (by decide) _),
            Option.bind_some, List.head?_cons, if_pos rfl, List.tail_cons,
            hothers (by omega), String.ofList_toList]
          rfl

theorem head?_ne_of_reads {value : JsValue} {tail : List Char}
    (h : Reads value) (stop : NoDigit tail) :
    (plain value ++ tail).head? ≠ some ']' := by
  intro hhead
  have hread := h ((plain value).length + 1) tail (Nat.lt_succ_self _) stop
  obtain ⟨rest, hrest⟩ := List.head?_eq_some_iff.mp hhead
  have hnone : readAtom (']' :: rest) = none := by
    have hword {word : String} {value : JsValue} {first : Char}
        {others : List Char} (hfirst : word.toList = first :: others)
        (hne : ']' ≠ first) : readWord word value (']' :: rest) = none :=
      readWord_cons_ne hfirst hne
    rw [readAtom, hword rfl (by decide), hword rfl (by decide),
      hword rfl (by decide)]
    rfl
  rw [hrest, readValue_atom (by decide) (by decide) (by decide), hnone]
    at hread
  cases hread

theorem reads_arr {items : List JsValue} (all : ∀ item ∈ items, Reads item) :
    Reads (.arr items) := by
  intro fuel rest enough stop
  rw [plain_arr, List.length_cons, List.length_append,
    List.length_singleton] at enough
  obtain ⟨fuel, rfl⟩ := Nat.exists_eq_succ_of_ne_zero
    (Nat.ne_of_gt (Nat.zero_lt_of_lt enough))
  rw [plain_arr, List.cons_append, List.append_assoc, List.singleton_append,
    readValue, List.head?_cons, if_neg (by decide), if_pos rfl, List.tail_cons]
  cases items with
  | nil => rfl
  | cons item others =>
      have hhead : ([','].intercalate (plainItems (item :: others)) ++
          ']' :: rest).head? ≠ some ']' := by
        have hitem := all item List.mem_cons_self
        rw [plainItems]
        cases others with
        | nil =>
            rw [plainItems, List.intercalate_singleton]
            exact head?_ne_of_reads hitem (noDigit_cons (by decide) rest)
        | cons second others =>
            rw [plainItems, List.intercalate_cons_cons, List.append_assoc,
              List.append_assoc, List.singleton_append]
            exact head?_ne_of_reads hitem (noDigit_cons (by decide) _)
      rw [if_neg hhead, readItems_plain (List.cons_ne_nil _ _) all (by omega)]
      rfl

theorem reads_obj {fields : JsObject}
    (all : ∀ field ∈ fields, Reads field.2) : Reads (.obj fields) := by
  intro fuel rest enough stop
  rw [plain_obj, List.length_cons, List.length_append,
    List.length_singleton] at enough
  obtain ⟨fuel, rfl⟩ := Nat.exists_eq_succ_of_ne_zero
    (Nat.ne_of_gt (Nat.zero_lt_of_lt enough))
  rw [plain_obj, List.cons_append, List.append_assoc, List.singleton_append,
    readValue, List.head?_cons, if_neg (by decide), if_neg (by decide),
    if_pos rfl, List.tail_cons]
  cases fields with
  | nil => rfl
  | cons field others =>
      have hhead : ([','].intercalate (plainFields (field :: others)) ++
          '\x7d' :: rest).head? ≠ some '\x7d' := by
        rw [plainFields, toList_quoted]
        cases others with
        | nil =>
            rw [plainFields, List.intercalate_singleton]
            simp
        | cons second others =>
            rw [plainFields, List.intercalate_cons_cons]
            simp
      rw [if_neg hhead, readFields_plain (List.cons_ne_nil _ _) all (by omega)]
      rfl

theorem reads_of_isJson {value : JsValue} (h : IsJson value) :
    Reads value := by
  induction h with
  | null => exact reads_null
  | bool b => exact reads_bool b
  | num n => exact reads_num n
  | str s => exact reads_str s
  | arr _ ih => exact reads_arr ih
  | obj _ _ ih => exact reads_obj ih

theorem parse_of_plain {value : JsValue} {text : String} (h : IsJson value)
    (htext : text.toList = plain value) : parse text = some value := by
  have hread := reads_of_isJson h ((plain value).length + 1) []
    (Nat.lt_succ_self _) (fun _ hnone => nomatch hnone)
  rw [List.append_nil] at hread
  rw [parse, htext, hread]
  rfl

/-! The values as they are written: the fields of each object in the order of
their enumeration. -/

mutual
def shown : JsValue → JsValue
  | .arr items => .arr (shownItems items)
  | .obj fields => .obj (enumerated (shownFields fields))
  | value => value

def shownItems : List JsValue → List JsValue
  | [] => []
  | item :: rest => shown item :: shownItems rest

def shownFields : JsObject → JsObject
  | [] => []
  | (key, value) :: rest => (key, shown value) :: shownFields rest
end

theorem shownItems_eq_map (items : List JsValue) :
    shownItems items = items.map shown := by
  induction items with
  | nil => rfl
  | cons item rest ih => rw [shownItems, ih, List.map_cons]

theorem shownFields_eq_map (fields : JsObject) :
    shownFields fields = fields.map fun field => (field.1, shown field.2) := by
  induction fields with
  | nil => rfl
  | cons field rest ih => rw [shownFields, ih, List.map_cons]

theorem shown_arr (items : List JsValue) :
    shown (.arr items) = .arr (items.map shown) := by
  rw [shown, shownItems_eq_map]

theorem shown_obj (fields : JsObject) : shown (.obj fields) =
    .obj ((enumerated fields).map fun field => (field.1, shown field.2)) := by
  rw [shown, shownFields_eq_map]
  exact congrArg JsValue.obj (enumerated_map (fun field => shown field.2) fields)

theorem isJson_shown {value : JsValue} (h : IsJson value) :
    IsJson (shown value) := by
  induction h with
  | null => exact .null
  | bool b => exact .bool b
  | num n => exact .num n
  | str s => exact .str s
  | arr _ ih =>
      rw [shown_arr]
      exact .arr (List.forall_mem_map.mpr ih)
  | obj distinct _ ih =>
      rename_i fields _
      have hperm := enumerated_perm fields
      rw [shown_obj]
      refine .obj ?_ (List.forall_mem_map.mpr ?_)
      · rw [List.map_map]
        exact (hperm.map Prod.fst).nodup_iff.mpr distinct
      · intro field hfield
        exact ih field (hperm.mem_iff.mp hfield)

theorem stringifyItems_eq_map (items : List JsValue) :
    stringifyItems items = items.map stringify := by
  induction items with
  | nil => rfl
  | cons item rest ih => rw [stringifyItems, ih, List.map_cons]

theorem stringifyFields_eq_map {fields : JsObject}
    (all : ∀ field ∈ fields, IsJson field.2) :
    stringifyFields fields =
      fields.map fun field => (field.1, stringify field.2) := by
  induction fields with
  | nil => rfl
  | cons field rest ih =>
      obtain ⟨key, value⟩ := field
      rw [List.forall_mem_cons] at all
      have hvalue : IsJson value := all.1
      rw [stringifyFields, ih all.2, List.map_cons]
      rintro rfl
      cases hvalue

theorem toList_stringify {value : JsValue} (h : IsJson value) :
    (stringify value).toList = plain (shown value) := by
  induction h with
  | null => rfl
  | bool b =>
      change (stringify (.bool b)).toList = plain (.bool b)
      rw [stringify, plain]
      cases b with
      | true => rfl
      | false => rfl
  | num n =>
      change (stringify (.num n)).toList = plain (.num n)
      rw [stringify, plain]
  | str s =>
      change (stringify (.str s)).toList = plain (.str s)
      rw [stringify, plain]
  | arr _ ih =>
      rename_i items _
      have htexts : (items.map stringify).map String.toList =
          (items.map shown).map plain := by
        rw [List.map_map, List.map_map]
        exact List.map_congr_left ih
      rw [shown_arr, plain_arr, plainItems_eq_map, ← htexts, stringify,
        stringifyItems_eq_map, String.toList_append, String.toList_append,
        String.toList_intercalate]
      rfl
  | obj _ all ih =>
      rename_i fields _
      have htexts : ((enumerated fields).map fun field =>
            quoted field.1 ++ ":" ++ stringify field.2).map String.toList =
          ((enumerated fields).map fun field => (field.1, shown field.2)).map
            fun field => (quoted field.1).toList ++ ':' :: plain field.2 := by
        rw [List.map_map, List.map_map]
        apply List.map_congr_left
        intro field hfield
        simp only [Function.comp_apply, String.toList_append]
        rw [ih field ((enumerated_perm fields).mem_iff.mp hfield),
          List.append_assoc]
        rfl
      rw [shown_obj, plain_obj, plainFields_eq_map, ← htexts, stringify,
        stringifyFields_eq_map all,
        enumerated_map (fun field => stringify field.2), List.map_map,
        String.toList_append, String.toList_append, String.toList_intercalate]
      rfl

/-- `JSON.stringify` writes the value, with the fields in the order of their
enumeration. -/
theorem parse_stringify {value : JsValue} (h : IsJson value) :
    parse (stringify value) = some (shown value) :=
  parse_of_plain (isJson_shown h) (toList_stringify h)

end JsonSyntax

end TwakeKickstart.Library
