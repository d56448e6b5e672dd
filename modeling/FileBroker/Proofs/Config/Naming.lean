import Mathlib
import FileBroker.Config.Load

namespace FileBroker.Settings

-- A text of these words, with separators between them and perhaps at both ends.
inductive Spells : List (List Char) → List Char → Prop
  | blank : (∀ c ∈ gap, isSeparator c) → Spells [] gap
  | word  : (∀ c ∈ gap, isSeparator c) → word ≠ [] → (∀ c ∈ word, isSeparator c = false) →
    (∀ c ∈ rest.head?, isSeparator c) → Spells words rest → Spells (word :: words) (gap ++ (word ++ rest))

def wordsOf (text : List Char) : List (List Char) :=
  (text.splitOnP isSeparator).filter (!·.isEmpty)

theorem fieldName_eq (text : List Char) :
    (fieldName text).toList = ['-'].intercalate (wordsOf text) := by
  have hc : String.toList ∘ String.ofList = id := funext fun _ => String.toList_ofList
  rw [fieldName, ←wordsOf, String.toList_intercalate, List.map_map, hc, List.map_id]
  rfl

theorem wordsOf_gap (h : ∀ c ∈ gap, isSeparator c) : wordsOf (gap ++ text) = wordsOf text := by
  induction gap
  case nil => rfl
  case cons c gap hi =>
    obtain ⟨hc, h⟩ := List.forall_mem_cons.mp h
    rw [←hi h]
    simp [wordsOf, List.splitOnP_cons_eq_if_modifyHead, hc]

theorem wordsOf_word (hne : word ≠ []) (hw : ∀ c ∈ word, isSeparator c = false)
    (hr : ∀ c ∈ rest.head?, isSeparator c) : wordsOf (word ++ rest) = word :: wordsOf rest := by
  cases rest
  case nil =>
    rw [List.append_nil, wordsOf, List.splitOnP_eq_singleton hw]
    simp [wordsOf, hne]
  case cons c rest =>
    have hc : isSeparator c := hr c rfl
    have hone : ∀ d ∈ [c], isSeparator d := by simpa using hc
    have hrest : wordsOf (c :: rest) = wordsOf rest := wordsOf_gap hone
    rw [hrest, wordsOf, List.splitOnP_append_cons_of_forall_mem hw c hc]
    simp [wordsOf, hne]

theorem Spells.wordsOf_eq (h : Spells words text) : wordsOf text = words := by
  induction h
  case blank gap hg =>
    rw [←List.append_nil gap, wordsOf_gap hg]
    rfl
  case word hg hne hw hr _ hi => rw [wordsOf_gap hg, wordsOf_word hne hw hr, hi]

theorem exists_spells (text : List Char) : ∃ words, Spells words text := by
  induction hl : text.length using Nat.strongRecOn generalizing text
  case ind hi =>
    subst hl
    have hg := List.takeWhile_append_dropWhile (p := isSeparator) (l := text)
    have hgap : ∀ c ∈ text.takeWhile isSeparator, isSeparator c := fun c hc => List.mem_takeWhile_imp hc
    have hb := List.head?_dropWhile_not isSeparator text
    generalize text.dropWhile isSeparator = more at hg hb
    rw [←hg] at hi ⊢
    cases more
    case nil => exact ⟨[], .blank <| by rwa [List.append_nil]⟩
    case cons c more =>
      have hc : isSeparator c = false := hb
      have hw := List.takeWhile_append_dropWhile (p := (!isSeparator ·)) (l := c :: more)
      have hword : ∀ d ∈ (c :: more).takeWhile (!isSeparator ·), isSeparator d = false := fun d hd => by
        simpa using List.mem_takeWhile_imp hd
      have hne : (c :: more).takeWhile (!isSeparator ·) ≠ [] := by simp [hc]
      have hr := List.head?_dropWhile_not (!isSeparator ·) (c :: more)
      generalize (c :: more).takeWhile (!isSeparator ·) = word at hw hword hne
      generalize (c :: more).dropWhile (!isSeparator ·) = rest at hw hr
      rw [←hw] at hi ⊢
      -- The word is not empty, so what is behind it is shorter.
      have hlt : rest.length < (text.takeWhile isSeparator ++ (word ++ rest)).length := by
        have := List.length_pos_of_ne_nil hne
        simp only [List.length_append]
        omega
      have ⟨words, h⟩ := hi _ hlt rest rfl
      refine ⟨word :: words, .word hgap hne hword (fun d hd => ?_) h⟩
      rw [hd] at hr
      simpa using hr

theorem wordsOf_eq_iff : wordsOf text = words ↔ Spells words text := by
  refine ⟨fun h => ?_, Spells.wordsOf_eq⟩
  have ⟨_, hs⟩ := exists_spells text
  rwa [←h, hs.wordsOf_eq]

theorem Spells.word_no_separator (h : Spells words text) :
    ∀ word ∈ words, ∀ c ∈ word, isSeparator c = false := by
  induction h
  case blank => simp
  case word hw _ _ hi => exact List.forall_mem_cons.mpr ⟨hw, hi⟩

-- A key of words, with a dash between them.
def keyOf (words : List (List Char)) : String :=
  String.ofList <| ['-'].intercalate words

theorem intercalate_ne_nil (hne : words ≠ []) (hw : ∀ word ∈ words, word ≠ []) :
    ['-'].intercalate words ≠ [] := by
  obtain ⟨word, words, rfl⟩ := List.exists_cons_of_ne_nil hne
  have hn := hw word List.mem_cons_self
  cases words <;> simp [List.intercalate, hn]

-- A dash is a separator, so that a key has its words in one way only.
theorem fieldName_eq_keyOf_iff (hne : words ≠ [])
    (hw : ∀ word ∈ words, word ≠ [] ∧ ∀ c ∈ word, isSeparator c = false) :
    fieldName text = keyOf words ↔ Spells words text := by
  have hd {words : List (List Char)} (hw : ∀ word ∈ words, ∀ c ∈ word, isSeparator c = false) :
      ∀ word ∈ words, '-' ∉ word := fun word hm hc => by
    have := hw word hm '-' hc
    exact absurd this (by decide)
  rw [←wordsOf_eq_iff, String.ext_iff, fieldName_eq, keyOf, String.toList_ofList]
  refine ⟨fun h => ?_, fun h => by rw [h]⟩
  have ⟨found, hs⟩ := exists_spells text
  rw [hs.wordsOf_eq] at h ⊢
  have hf : found ≠ [] := by
    rintro rfl
    exact intercalate_ne_nil hne (fun word hm => (hw word hm).1) h.symm
  -- No word has a dash, so splitting there gives the words back.
  have hsplit := congrArg (List.splitOn '-') h
  rwa [List.splitOn_intercalate _ (hd hs.word_no_separator) hf,
    List.splitOn_intercalate _ (hd fun word hm => (hw word hm).2) hne] at hsplit

theorem isSubPath_head (h : isSubPath bound (c :: more)) : c = '.' ∨ c = '[' := by
  unfold isSubPath at h
  split at h
  case h_1 he => cases he
  case h_2 => cases h
  case h_3 he => exact .inl (List.cons.inj he).left
  case h_4 he => exact .inr (List.cons.inj he).left
  case h_5 => cases h

-- What a name stands for: for itself, or for what it leads into, which then is no scalar.
inductive Entered (key : String) (s : Setting) : String → Setting → Prop
  | itself : Entered key s key s
  | inside : name.toList = key.toList ++ '.' :: more → isSubPath ('.' :: more).length ('.' :: more) →
    Entered key s name .table
  | item   : name.toList = key.toList ++ '[' :: more → isSubPath ('[' :: more).length ('[' :: more) →
    Entered key s name .list

-- Names that are cut at the first character that is in no key.
theorem ofName_cases (name : String) (s : Setting) :
    ofName name s = (name, s) ∨
      ∃ head c more, name.toList = head ++ c :: more ∧ isSubPath (c :: more).length (c :: more) ∧
        ofName name s = (String.ofList head, if c = '[' then .list else .table) := by
  have hd : (name.toList.takeWhile isKeyChar ++ name.toList.dropWhile isKeyChar).drop
      (name.toList.takeWhile isKeyChar).length = name.toList.dropWhile isKeyChar := List.drop_left
  rw [List.takeWhile_append_dropWhile] at hd
  have ht := List.takeWhile_append_dropWhile (p := isKeyChar) (l := name.toList)
  unfold ofName
  dsimp only
  rw [hd]
  generalize name.toList.takeWhile isKeyChar = head at ht
  generalize name.toList.dropWhile isKeyChar = rest at ht
  cases rest
  case nil => exact .inl rfl
  case cons c more =>
    dsimp only
    split
    case isTrue => exact .inl rfl
    case isFalse hp =>
      simp only [Bool.or_eq_true, Bool.not_eq_true', not_or, Bool.not_eq_false] at hp
      exact .inr ⟨head, c, more, ht.symm, hp.2, by simp⟩

theorem ofName_plain (s : Setting) (h : ∀ c ∈ name.toList, c ≠ '.' ∧ c ≠ '[') :
    ofName name s = (name, s) := by
  rcases ofName_cases name s with hn | ⟨head, c, more, ht, hp, _⟩
  case inl => exact hn
  case inr =>
    have hc : c ∈ name.toList := by simp [ht]
    exact absurd (isSubPath_head hp) (not_or.mpr (h c hc))

theorem ofName_path (s : Setting) (hne : head ≠ []) (hk : ∀ c ∈ head, isKeyChar c)
    (ht : name.toList = head ++ c :: more) (hp : isSubPath (c :: more).length (c :: more)) :
    ofName name s = (String.ofList head, if c = '[' then .list else .table) := by
  have hc : isKeyChar c = false := by
    rcases isSubPath_head hp with rfl | rfl <;> decide
  have hw : name.toList.takeWhile isKeyChar = head := by
    rw [ht, List.takeWhile_append_of_pos hk]
    simp [hc]
  unfold ofName
  dsimp only
  rw [hw, ht, List.drop_left]
  dsimp only
  rw [hp]
  simp [hne]

theorem ofName_eq_iff (s t : Setting) (hne : key.toList ≠ []) (hk : ∀ c ∈ key.toList, isKeyChar c) :
    ofName name s = (key, t) ↔ Entered key s name t := by
  refine ⟨fun h => ?_, fun h => ?_⟩
  case refine_1 =>
    rcases ofName_cases name s with hn | ⟨head, c, more, ht, hp, hn⟩
    case inl =>
      obtain ⟨rfl, rfl⟩ := Prod.mk.inj (hn.symm.trans h)
      exact .itself
    case inr =>
      obtain ⟨rfl, rfl⟩ := Prod.mk.inj (hn.symm.trans h)
      rw [←String.toList_ofList (l := head)] at ht
      rcases isSubPath_head hp with rfl | rfl
      case inl => exact .inside ht hp
      case inr => exact .item ht hp
  case refine_2 =>
    cases h
    case itself =>
      refine ofName_plain s fun c hc => ⟨?_, ?_⟩
      all_goals
        rintro rfl
        exact absurd (hk _ hc) (by decide)
    case inside hp ht => simpa using ofName_path s hne hk ht hp
    case item hp ht   => simpa using ofName_path s hne hk ht hp

-- The name of a variable for a setting of these words.
def Names (words : List (List Char)) (name : String) : Prop :=
  ∃ rest, (lower name).toList = variablePrefix.toList ++ rest ∧ Spells words rest

-- A name that leads nowhere, as all names of letters, digits, dashes and underscores.
def Plain (name : String) : Prop :=
  ∀ c ∈ name.toList, c ≠ '.' ∧ c ≠ '['

theorem toLower_cases (c : Char) : c.toLower = c ∨ 97 ≤ c.toLower.toNat ∧ c.toLower.toNat ≤ 122 := by
  unfold Char.toLower
  split
  case isFalse => exact .inl rfl
  case isTrue h =>
    have hl : 65 ≤ c.toNat := UInt32.le_iff_toNat_le.mp h.1
    have hu : c.toNat ≤ 90 := UInt32.le_iff_toNat_le.mp h.2
    have hv : (c.val + ('a'.val - 'A'.val)).toNat = c.toNat + 32 := by
      rw [UInt32.toNat_add]
      change (c.toNat + 32) % 2 ^ 32 = _
      omega
    refine .inr ?_
    change 97 ≤ (c.val + ('a'.val - 'A'.val)).toNat ∧ (c.val + ('a'.val - 'A'.val)).toNat ≤ 122
    omega

theorem Plain.lower (h : Plain name) : Plain (lower name) := by
  intro c hc
  rw [Settings.lower, String.toList_ofList] at hc
  obtain ⟨d, hd, rfl⟩ := List.mem_map.mp hc
  split
  case isTrue => decide
  case isFalse =>
    rcases toLower_cases d with he | hr
    case inl =>
      rw [he]
      exact h d hd
    case inr =>
      refine ⟨?_, ?_⟩
      all_goals
        intro he
        rw [he] at hr
        exact absurd hr (by decide)

theorem Spells.mem {word : List Char} (h : Spells words text) (hw : word ∈ words) (hc : c ∈ word) :
    c ∈ text := by
  induction h
  case blank => cases hw
  case word hi =>
    rcases List.mem_cons.mp hw with rfl | hw
    case inl => simp [hc]
    case inr => simp [hi hw]

theorem mem_intercalate {words : List (List Char)} (h : c ∈ ['-'].intercalate words) :
    c = '-' ∨ ∃ word ∈ words, c ∈ word := by
  induction words
  case nil => cases h
  case cons word words hi =>
    cases words
    case nil => exact .inr ⟨word, by simp, by simpa using h⟩
    case cons =>
      rw [List.intercalate_cons_cons, List.mem_append, List.mem_append, List.mem_singleton] at h
      rcases h with (h | h) | h
      case inl.inl => exact .inr ⟨word, List.mem_cons_self, h⟩
      case inl.inr => exact .inl h
      case inr     => exact (hi h).imp_right fun ⟨w, hw, hc⟩ => ⟨w, List.mem_cons_of_mem _ hw, hc⟩

theorem fieldName_plain {text : List Char} (h : ∀ c ∈ text, c ≠ '.' ∧ c ≠ '[') : Plain (fieldName text) := by
  intro c hc
  rw [fieldName_eq] at hc
  have ⟨words, hs⟩ := exists_spells text
  rw [hs.wordsOf_eq] at hc
  rcases mem_intercalate hc with rfl | ⟨word, hw, hc⟩
  case inl => decide
  case inr => exact h c <| hs.mem hw hc

-- A setting's words are letters.
structure Wording (words : List (List Char)) : Prop where
  ne_nil  : words ≠ []
  word    : ∀ word ∈ words, word ≠ [] ∧ ∀ c ∈ word, isSeparator c = false
  keyChar : ∀ word ∈ words, ∀ c ∈ word, isKeyChar c

-- What a variable is read as.
theorem variable_eq (hp : Plain name) (hr : (lower name).toList = variablePrefix.toList ++ rest) :
    ofName (fieldName ((lower name).toList.drop variablePrefix.length)) s = (fieldName rest, s) := by
  have hplain : Plain (fieldName rest) := fieldName_plain fun c hc => hp.lower c <| by simp [hr, hc]
  rw [hr, ←String.length_toList, List.drop_left]
  exact ofName_plain s hplain

theorem Wording.key_ne_nil (hw : Wording words) : (keyOf words).toList ≠ [] := by
  rw [keyOf, String.toList_ofList]
  exact intercalate_ne_nil hw.ne_nil fun word hm => (hw.word word hm).1

theorem Wording.key_keyChar (hw : Wording words) : ∀ c ∈ (keyOf words).toList, isKeyChar c := by
  intro c hc
  rw [keyOf, String.toList_ofList] at hc
  rcases mem_intercalate hc with rfl | ⟨word, hm, hc⟩
  case inl => decide
  case inr => exact hw.keyChar word hm c hc

theorem mem_ofEnvironment_iff (hw : Wording words) (hp : ∀ p ∈ env, Plain p.1) :
    (keyOf words, s) ∈ ofEnvironment env ↔
      ∃ name value, (name, value) ∈ env ∧ Names words name ∧ s = .ofVariable value := by
  have hkey {text : List Char} : fieldName text = keyOf words ↔ Spells words text :=
    fieldName_eq_keyOf_iff hw.ne_nil hw.word
  rw [ofEnvironment, List.mem_filterMap]
  refine ⟨fun ⟨⟨name, value⟩, hm, h⟩ => ?_,
    fun ⟨name, value, hm, ⟨rest, hr, hs⟩, he⟩ => ⟨(name, value), hm, ?_⟩⟩
  case refine_1 =>
    dsimp only at h
    split at h
    case isTrue hpre =>
      have ⟨rest, hr⟩ := List.isPrefixOf_iff_prefix.mp hpre
      rw [variable_eq (hp _ hm) hr.symm, Option.some_inj, Prod.mk.injEq] at h
      exact ⟨name, value, hm, ⟨rest, hr.symm, hkey.mp h.1⟩, h.2.symm⟩
    case isFalse => cases h
  case refine_2 =>
    have hpre : variablePrefix.toList.isPrefixOf (lower name).toList :=
      List.isPrefixOf_iff_prefix.mpr ⟨rest, hr.symm⟩
    dsimp only
    rw [if_pos hpre, variable_eq (hp _ hm) hr, hkey.mpr hs, he]

-- The name of a file's key for a setting, or for something in it.
def LeadsTo (key name : String) : Prop :=
  ∃ s t, Entered key s (lower name) t

theorem mem_ofToml_iff (hw : Wording words) :
    (keyOf words, s) ∈ ofToml entries ↔
      ∃ name e, (name, e) ∈ entries ∧ Entered (keyOf words) (.ofToml e.toValue) (lower name) s := by
  have hentered {name : String} {t : Setting} : ofName name t = (keyOf words, s) ↔ Entered _ t name s :=
    ofName_eq_iff t s hw.key_ne_nil hw.key_keyChar
  rw [ofToml, List.mem_map]
  refine ⟨fun ⟨⟨name, e⟩, hm, h⟩ => ⟨name, e, hm, hentered.mp h⟩,
    fun ⟨name, e, hm, h⟩ => ⟨(name, e), hm, hentered.mpr h⟩⟩

-- A name is for one setting only.
theorem Names.unique (h : Names words name) (h' : Names words' name) : words = words' := by
  have ⟨rest, hr, hs⟩ := h
  have ⟨rest', hr', hs'⟩ := h'
  obtain rfl := List.append_cancel_left <| hr.symm.trans hr'
  exact hs.wordsOf_eq.symm.trans hs'.wordsOf_eq

theorem Entered.ofSetting (h : Entered key s name t) (s' : Setting) : ∃ t', Entered key s' name t' := by
  cases h
  case itself       => exact ⟨_, .itself⟩
  case inside hp ht => exact ⟨_, .inside ht hp⟩
  case item hp ht   => exact ⟨_, .item ht hp⟩

theorem LeadsTo.unique (hw : Wording words) (hw' : Wording words') (h : LeadsTo (keyOf words) name)
    (h' : LeadsTo (keyOf words') name) : keyOf words = keyOf words' := by
  have ⟨s, t, h⟩ := h
  have ⟨_, _, h'⟩ := h'
  have ⟨t', h'⟩ := h'.ofSetting s
  have hn := (ofName_eq_iff s t hw.key_ne_nil hw.key_keyChar).mpr h
  have hn' := (ofName_eq_iff s t' hw'.key_ne_nil hw'.key_keyChar).mpr h'
  exact (Prod.mk.inj <| hn.symm.trans hn').1

-- No name is set in two ways.
def Consistent (settings : Settings) : Prop :=
  ∀ p ∈ settings, ∀ q ∈ settings, p.1 = q.1 → p.2 = q.2

theorem find?_eq_none_iff : find? settings key = none ↔ ∀ s, (key, s) ∉ settings := by
  rw [find?, List.lookup_eq_none_iff]
  refine ⟨fun h s hm => ?_, fun h p hp => ?_⟩
  case refine_1 => simpa using h (key, s) (List.mem_reverse.mpr hm)
  case refine_2 =>
    rw [bne_iff_ne]
    rintro rfl
    exact h p.2 <| List.mem_reverse.mp hp

theorem find?_eq_some_iff (h : Consistent settings) : find? settings key = some s ↔ (key, s) ∈ settings := by
  have hmem {t : Setting} (ht : find? settings key = some t) : (key, t) ∈ settings := by
    have ⟨_, _, hl, _⟩ := List.lookup_eq_some_iff.mp ht
    exact List.mem_reverse.mp <| hl ▸ by simp
  refine ⟨hmem, fun hs => ?_⟩
  cases hf : find? settings key
  case none   => exact absurd hs (find?_eq_none_iff.mp hf s)
  case some t => exact congrArg some <| h _ (hmem hf) _ hs rfl

end FileBroker.Settings
