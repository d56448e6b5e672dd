import Mathlib
import FileBroker.Proofs.Text.Scanning
import FileBroker.Toml.Read

namespace FileBroker.Toml

open Scan

-- A character as it stands between quotes.
def escape (c : Char) : List Char :=
  if c = '"' then ['\\', '"']
  else if c = '\\' then ['\\', '\\']
  else if isPlain c then [c]
  else ['\\', 'u', '0', '0', Nat.digitChar (c.toNat / 16), Nat.digitChar (c.toNat % 16)]

def quoted (text : String) : List Char :=
  '"' :: (text.toList.flatMap escape ++ ['"'])

theorem lt_of_not_plain (h : isPlain c = false) : c.toNat < 128 := by
  simp only [isPlain, Bool.or_eq_false_iff, Bool.and_eq_false_iff, decide_eq_false_iff_not] at h
  rcases h.2 with h | h
  case inl =>
    have h : ¬32 ≤ c.toNat := h
    omega
  case inr =>
    obtain rfl : c = '\x7f' := by simpa using h
    decide

theorem hex_digits : ∀ n < 128,
    [ '0', '0', Nat.digitChar (n / 16), Nat.digitChar (n % 16)].all isHexDigit ∧
      number 16 ['0', '0', Nat.digitChar (n / 16), Nat.digitChar (n % 16)] = n := by
  decide

theorem escaped_code (h : Char.toNat c < 128) (rest : List Char) :
    escaped (['u', '0', '0', Nat.digitChar (c.toNat / 16), Nat.digitChar (c.toNat % 16)] ++ rest) =
      some (c, rest) := by
  obtain ⟨hd, hn⟩ := hex_digits _ h
  have ht : take 4 isHexDigit (_ ++ rest) = some (_, rest) := take_front rfl hd
  rw [List.cons_append, escaped, bind_some (next_cons 'u' _)]
  change codePoint 4 _ = _
  rw [codePoint, bind_some ht, hn, bind_some (guard_true (by omega) _), Char.ofNat_toNat]
  rfl

-- One character of a text, with what is made of the rest of it.
theorem basicText_escape (c : Char) (h : basicText bound rest = some (cs, more)) :
    basicText (bound + 1) (escape c ++ rest) = some (c :: cs, more) := by
  have hesc {tail : List Char} (he : escaped tail = some (c, rest)) :
      basicText (bound + 1) ('\\' :: tail) = some (c :: cs, more) := by
    rw [basicText, bind_some (next_cons _ _)]
    change (do return (← escaped) :: (← basicText bound) : Scan (List Char)) tail = _
    rw [bind_some he, bind_some h]
    rfl
  unfold escape
  split_ifs with hq hb hp
  case pos => exact hesc <| by rw [hq]; rfl
  case pos => exact hesc <| by rw [hb]; rfl
  case pos =>
    rw [List.singleton_append, basicText, bind_some (next_cons _ _)]
    split
    case h_1 => exact absurd rfl hq
    case h_2 => exact absurd rfl hb
    case h_3 =>
      rw [bind_some (guard_true hp rest), bind_some h]
      rfl
  case neg => exact hesc <| escaped_code (lt_of_not_plain <| by simpa using hp) rest

theorem basicText_escaped (cs rest : List Char) (h : cs.length < bound) :
    basicText bound (cs.flatMap escape ++ '"' :: rest) = some (cs, rest) := by
  induction cs generalizing bound
  case nil =>
    obtain ⟨bound, rfl⟩ := Nat.exists_eq_succ_of_ne_zero (Nat.ne_of_gt h)
    rfl
  case cons c cs hi =>
    obtain ⟨bound, rfl⟩ := Nat.exists_eq_succ_of_ne_zero (Nat.ne_of_gt (Nat.zero_lt_of_lt h))
    rw [List.flatMap_cons, List.append_assoc]
    exact basicText_escape c <| hi <| Nat.lt_of_succ_lt_succ h

theorem escape_head (c : Char) : ∃ d more, escape c = d :: more ∧ '"' ≠ d := by
  unfold escape
  split_ifs with hq
  case pos => exact ⟨_, _, rfl, by decide⟩
  case pos => exact ⟨_, _, rfl, by decide⟩
  case pos => exact ⟨_, _, rfl, Ne.symm hq⟩
  case neg => exact ⟨_, _, rfl, by decide⟩

theorem length_le_flatMap {as : List α} {f : α → List β} (h : ∀ a ∈ as, f a ≠ []) :
    as.length ≤ (as.flatMap f).length := by
  induction as
  case nil => simp
  case cons a as hi =>
    obtain ⟨ha, h⟩ := List.forall_mem_cons.mp h
    have := List.length_pos_of_ne_nil ha
    have := hi h
    simp only [List.flatMap_cons, List.length_append, List.length_cons]
    omega

theorem shortText_quoted (cs rest : List Char) :
    shortText '"' (cs.flatMap escape ++ '"' :: rest) = some (cs, rest) := by
  have hs : cs.length < (cs.flatMap escape ++ '"' :: rest).length + 1 := by
    have hl : cs.length ≤ (cs.flatMap escape).length := length_le_flatMap fun c _ => by
      have ⟨d, more, he, _⟩ := escape_head c
      simp [he]
    simp only [List.length_append, List.length_cons]
    omega
  exact basicText_escaped cs rest hs

-- Two quotes that enclose nothing are not the first two of three.
theorem no_long_quote (v : String) (h : ∀ c ∈ rest.head?, '"' ≠ c) :
    (String.ofList ['"', '"', '"']).toList.isPrefixOf ('"' :: (v.toList.flatMap escape ++ '"' :: rest)) =
      false := by
  cases v.toList
  case nil =>
    cases rest
    case nil  => rfl
    case cons => simp [List.isPrefixOf, h _ rfl]
  case cons c cs =>
    have ⟨d, more, he, hd⟩ := escape_head c
    simp [List.isPrefixOf, he, hd]

theorem quoted_append (v : String) (rest : List Char) :
    quoted v ++ rest = '"' :: (v.toList.flatMap escape ++ '"' :: rest) := by
  simp [quoted]

theorem text_quoted (v : String) (h : ∀ c ∈ rest.head?, '"' ≠ c) :
    text '"' (quoted v ++ rest) = some (v, rest) := by
  rw [quoted_append, text, bind_some (acceptText_other <| no_long_quote v h)]
  change (do expect '"'; return String.ofList (← shortText '"') : Scan String) _ = _
  rw [bind_some (expect_self _ _), bind_some (shortText_quoted _ _), String.ofList_toList]
  rfl

theorem value_quoted (v : String) (h : ∀ c ∈ rest.head?, '"' ≠ c) :
    value (bound + 1) (quoted v ++ rest) = some (.text v, rest) := by
  have hp : peek? (quoted v ++ rest) = some (some '"', quoted v ++ rest) := by
    rw [quoted_append]
    rfl
  rw [value, bind_some hp]
  exact map_some Value.text <| text_quoted v h

-- A name stands by itself if it can.
def nameText (name : String) : List Char :=
  if name.toList ≠ [] ∧ ∀ c ∈ name.toList, isBare c then name.toList else quoted name

theorem simpleKey_nameText (name : String) (h : ∀ c ∈ rest.head?, isBare c = false) :
    simpleKey (nameText name ++ rest) = some (name, rest) := by
  unfold nameText
  split
  case isTrue hb =>
    obtain ⟨hne, hb⟩ := hb
    have hq : ∀ c ∈ (name.toList ++ rest).head?, c ≠ '"' ∧ c ≠ '\'' := by
      rw [List.head?_append_of_ne_nil _ hne]
      intro c hc
      have hc := hb c <| List.mem_of_mem_head? hc
      refine ⟨?_, ?_⟩
      all_goals
        rintro rfl
        exact absurd hc (by decide)
    rw [simpleKey, bind_some (peek?_apply _)]
    generalize (name.toList ++ rest).head? = first at hq
    split
    case h_1 => exact absurd rfl (hq _ rfl).1
    case h_2 => exact absurd rfl (hq _ rfl).2
    case h_3 =>
      rw [bind_some (span1_front hne hb h), String.ofList_toList]
      rfl
  case isFalse =>
    rw [quoted_append, simpleKey, bind_some (peek?_apply _)]
    change (do let _ ← next; return String.ofList (← shortText '"') : Scan String) _ = _
    rw [bind_some (next_cons _ _), bind_some (shortText_quoted _ _), String.ofList_toList]
    rfl

theorem blanks_front (front : List Char) (hf : ∀ c ∈ front, isBlank c)
    (hr : ∀ c ∈ rest.head?, isBlank c = false) :
    blanks (front ++ rest) = some ((), rest) := by
  rw [blanks, bind_some (span_front hf hr)]
  rfl

theorem blanks_none (h : ∀ c ∈ rest.head?, isBlank c = false) : blanks rest = some ((), rest) :=
  blanks_front [] (by simp) h

theorem blanks_one (h : ∀ c ∈ rest.head?, isBlank c = false) : blanks (' ' :: rest) = some ((), rest) :=
  blanks_front [' '] (by simp [isBlank]) h

theorem key_nameText (name : String) (rest : List Char) :
    key (bound + 1) (nameText name ++ ' ' :: '=' :: rest) = some (([], name), ' ' :: '=' :: rest) := by
  have hb : blanks (' ' :: '=' :: rest) = some ((), '=' :: rest) := blanks_one (by simp; decide)
  have hd : accept '.' ('=' :: rest) = some (false, '=' :: rest) := accept_other (by simp)
  rw [key, bind_some (simpleKey_nameText name (by simp; decide)), bind_some (get_apply _), bind_some hb,
    bind_some hd]
  rfl

-- What a line for a setting looks like.
def lineText (name value : String) : List Char :=
  nameText name ++ ' ' :: '=' :: ' ' :: (quoted value ++ ['\n'])

theorem change_new (f : Option Entry → Option Entry) (hf : f none = some e) (h : ∀ p ∈ entries, p.1 ≠ name) :
    Entries.change name f entries = some (entries ++ [(name, e)]) := by
  induction entries
  case nil =>
    rw [Entries.change, hf]
    rfl
  case cons p entries hi =>
    obtain ⟨hp, h⟩ := List.forall_mem_cons.mp h
    rw [Entries.change, if_neg hp, hi h]
    rfl

theorem insertBelow_new (v : Value) (h : ∀ p ∈ entries, p.1 ≠ name) :
    Entries.insertBelow entries [] [] name v = some (entries ++ [(name, .value v)]) :=
  change_new _ rfl h

theorem keyValue_lineText (v : String) (d : Document) (hd : d.opened = []) (hn : ∀ p ∈ d.entries, p.1 ≠ name) :
    keyValue d (lineText name v ++ rest) =
      some ({ d with entries := d.entries ++ [(name, .value (.text v))] }, '\n' :: rest) := by
  have hl : lineText name v ++ rest = nameText name ++ ' ' :: '=' :: ' ' :: (quoted v ++ '\n' :: rest) := by
    simp [lineText]
  have hq : ∀ c ∈ (quoted v ++ '\n' :: rest).head?, isBlank c = false := by
    rw [quoted_append]
    simp [isBlank]
  have hi : (d.entries.insertBelow d.opened [] name (.text v) : Scan Entries) ('\n' :: rest) =
      some (d.entries ++ [(name, .value (.text v))], '\n' :: rest) := by
    rw [hd, insertBelow_new _ hn]
    rfl
  rw [hl, keyValue, bind_some rfl, bind_some (key_nameText name _)]
  dsimp only
  rw [bind_some (blanks_one (by simp [isBlank])), bind_some (expect_self _ _), bind_some (blanks_one hq),
    bind_some rfl, bind_some (value_quoted v (by simp))]
  exact bind_some hi

theorem lineEnd_newline (rest : List Char) : lineEnd ('\n' :: rest) = some ((), rest) := by
  rw [lineEnd, bind_some (blanks_none (by simp [isBlank]))]
  rfl

-- How a line for a setting begins.
structure Begins (c : Char) : Prop where
  blank    : isBlank c = false
  comment  : '#' ≠ c
  newline  : '\n' ≠ c
  carriage : '\r' ≠ c
  header   : '[' ≠ c
  order    : '\uFEFF' ≠ c

theorem begins_of_isBare (h : isBare c) : Begins c := by
  constructor
  case blank =>
    simp only [isBlank, Bool.or_eq_false_iff, decide_eq_false_iff_not]
    refine ⟨?_, ?_⟩ <;> rintro rfl <;> exact absurd h (by decide)
  all_goals
    rintro rfl
    exact absurd h (by decide)

theorem lineText_front (name v : String) (rest : List Char) :
    ∃ c more, lineText name v ++ rest = c :: more ∧ Begins c := by
  rw [lineText, List.append_assoc, nameText]
  split
  case isTrue h =>
    obtain ⟨c, cs, hcs⟩ := List.exists_cons_of_ne_nil h.1
    exact ⟨c, _, by rw [hcs]; rfl, begins_of_isBare <| h.2 c (hcs ▸ List.mem_cons_self)⟩
  case isFalse =>
    rw [quoted_append]
    exact ⟨_, _, rfl, by constructor <;> decide⟩

-- Nothing is skipped before it.
theorem gap_none (hc : Begins c) (more : List Char) : gap (bound + 1) (c :: more) = some ((), c :: more) := by
  have hcomment : comment (c :: more) = some ((), c :: more) := by
    rw [comment, bind_some (accept_other (by simp [hc.comment]))]
    rfl
  have hline : newline (c :: more) = some (false, c :: more) := by
    rw [newline, bind_some (accept_other (by simp [hc.newline]))]
    exact acceptText_other <| by simp [List.isPrefixOf, hc.carriage]
  rw [gap, bind_some (blanks_none (by simp [hc.blank])), bind_some hcomment, bind_some hline]
  rfl

def document (settings : List (String × String)) : List Char :=
  settings.flatMap fun (name, v) => lineText name v

def written (settings : List (String × String)) : Entries :=
  settings.map fun (name, v) => (name, .value (.text v))

theorem lines_lineText (v : String) (d : Document) (hd : d.opened = []) (hn : ∀ p ∈ d.entries, p.1 ≠ name) :
    lines (bound + 1) d (lineText name v ++ rest) =
      lines bound { d with entries := d.entries ++ [(name, .value (.text v))] } rest := by
  have hkey : keyValue d (lineText name v ++ rest) = _ := keyValue_lineText v d hd hn
  have ⟨c, more, ht, hc⟩ := lineText_front name v rest
  rw [ht] at hkey ⊢
  have hend : atEnd (c :: more) = some (false, c :: more) := rfl
  rw [lines, bind_some rfl, bind_some (gap_none hc more), bind_some hend, if_neg Bool.false_ne_true,
    bind_some (accept_other (by simp [hc.header])), if_neg Bool.false_ne_true, bind_some hkey]
  exact bind_some (lineEnd_newline rest)

theorem lines_document (settings : List (String × String)) (d : Document) (hd : d.opened = [])
    (hn : (d.entries.map (·.1) ++ settings.map (·.1)).Nodup) (hb : settings.length < bound) :
    lines bound d (document settings) = some ({ d with entries := d.entries ++ written settings }, []) := by
  induction settings generalizing bound d
  case nil =>
    obtain ⟨bound, rfl⟩ := Nat.exists_eq_succ_of_ne_zero (Nat.ne_of_gt hb)
    rw [written, List.map_nil, List.append_nil]
    rfl
  case cons s settings hi =>
    obtain ⟨name, v⟩ := s
    obtain ⟨bound, rfl⟩ := Nat.exists_eq_succ_of_ne_zero (Nat.ne_of_gt (Nat.zero_lt_of_lt hb))
    have hnew : ∀ p ∈ d.entries, p.1 ≠ name := fun p hp he =>
      (List.nodup_append.mp hn).2.2 p.1 (List.mem_map_of_mem hp) name List.mem_cons_self he
    have hi := hi { d with entries := d.entries ++ [(name, .value (.text v))] } hd (by simpa using hn)
      (Nat.lt_of_succ_lt_succ hb)
    rw [document, List.flatMap_cons, lines_lineText v d hd hnew, ←document, hi]
    simp [written]

-- A document of texts is read as what was written, if no name occurs in it twice.
theorem read?_document (settings : List (String × String)) (hn : (settings.map (·.1)).Nodup) :
    read? (String.ofList (document settings)) = some (written settings) := by
  have hne : ∀ s ∈ settings, lineText s.1 s.2 ≠ [] := fun s _ => by simp [lineText]
  have hb : settings.length < (document settings).length + 1 :=
    Nat.lt_succ_of_le <| length_le_flatMap hne
  have hl := lines_document settings {} rfl (by simpa using hn) hb
  -- No line begins with a byte order mark, so nothing is cut off.
  have hfirst : ∀ rest, document settings ≠ '\uFEFF' :: rest := by
    intro rest hd
    cases settings
    case nil => cases hd
    case cons s settings =>
      have ⟨c, more, hs, hc⟩ := lineText_front s.1 s.2 (document settings)
      exact hc.order (List.cons.inj (hs.symm.trans hd)).1.symm
  rw [read?, String.toList_ofList]
  split
  case h_1 rest hd => exact absurd hd (hfirst rest)
  case h_2 =>
    rw [hl]
    rfl

end FileBroker.Toml
