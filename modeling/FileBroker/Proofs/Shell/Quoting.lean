import Mathlib
import FileBroker.Shell.Run

namespace FileBroker.Shell

-- The word that a quoted text is. Its single quotes stand outside of the others.
def literal (text : String) : Word :=
  text.toList.map fun c => (c, if c = '\'' then .escaped else .single)

theorem literal_text (text : String) : (literal text).text = text := by
  simp [literal, Word.text, Function.comp_def]

theorem mem_literal (h : (c, q) ∈ literal text) : q = .single ∨ (c = '\'' ∧ q = .escaped) := by
  have ⟨a, _, ha⟩ := List.mem_map.mp h
  rw [Prod.mk.injEq] at ha
  obtain ⟨rfl, rfl⟩ := ha
  split
  case isTrue hc => exact .inr ⟨hc, rfl⟩
  case isFalse   => exact .inl rfl

-- One character between the quotes. If it is a quote itself, the shell leaves the quotes and comes back.
theorem split_inside (w : Word) (c : Char) (rest : List Char) :
    split .single (some w) (quote.inside c ++ rest) =
      split .single (some (w ++ [(c, if c = '\'' then .escaped else .single)])) rest := by
  unfold quote.inside
  by_cases hc : c = '\''
  case pos =>
    subst hc
    rfl
  case neg => simp [hc, split, extend]

theorem split_quoted (w : Word) (chars rest : List Char) :
    split .single (some w) (chars.flatMap quote.inside ++ '\'' :: rest) =
      split .bare (some (w ++ chars.map fun c => (c, if c = '\'' then .escaped else .single))) rest := by
  induction chars generalizing w
  case nil => simp [split]
  case cons c chars hi =>
    rw [List.flatMap_cons, List.append_assoc, split_inside, hi, List.append_assoc]
    rfl

-- A quoted text goes on with the word that has been begun.
theorem split_quote (w : Option Word) (text : String) (rest : List Char) :
    split .bare w ((quote text).toList ++ rest) = split .bare (some (w.getD [] ++ literal text)) rest := by
  have hq : (quote text).toList ++ rest = '\'' :: (text.toList.flatMap quote.inside ++ '\'' :: rest) := by
    simp [quote]
  rw [hq]
  exact split_quoted (w.getD []) text.toList rest

-- Only a bare character or one between double quotes can begin an expansion.
theorem expand_guarded (k : Context) (status : Nat) {w : Word}
    (h : ∀ p ∈ w, p.2 = .single ∨ p.2 = .escaped) : k.expand status w = w.map (·.1) := by
  fun_induction k.expand status w
  case case1 q _ _ _ text hv _ =>
    have hq : ¬(q = .bare ∨ q = .double) := by
      obtain hq | hq := h _ List.mem_cons_self <;> simp [show q = _ from hq]
    simp [hq] at hv
  case case2 hi =>
    rw [hi fun p hp => h p <| List.mem_cons_of_mem _ hp]
    rfl
  case case3 hi =>
    rw [hi fun p hp => h p <| List.mem_cons_of_mem _ hp]
    rfl
  case case4 => rfl

theorem expand_literal (k : Context) (status : Nat) (text : String) :
    k.expand status (literal text) = text.toList := by
  have h : ∀ p ∈ literal text, p.2 = .single ∨ p.2 = .escaped := fun (c, q) hp =>
    (mem_literal hp).imp_right (·.right)
  rw [expand_guarded k status h]
  simp [literal, Function.comp_def]

-- The line that starts a helper, for any path and any address: empty ones, and such as hold quotes,
-- blanks, the ends of commands, or anything else that means something to a shell.
theorem helperLine_is_two_words (path address : String) :
    tokens (helperLine path address) = some [.word (literal path), .word (literal address)] ∧
      (literal path).text = path ∧ (literal address).text = address ∧
      (∀ c q, (c, q) ∈ literal path ++ literal address → q = .single ∨ (c = '\'' ∧ q = .escaped)) ∧
      ∀ (k : Context) (status : Nat), k.expand status (literal path) = path.toList ∧
        k.expand status (literal address) = address.toList := by
  refine ⟨?split, literal_text path, literal_text address, fun c q h => ?guarded, fun k status =>
    ⟨expand_literal k status path, expand_literal k status address⟩⟩
  case split =>
    have hl : (helperLine path address).toList =
        (quote path).toList ++ ' ' :: ((quote address).toList ++ []) := by
      simp [helperLine, ToString.toString]
    rw [tokens, hl, split_quote, split, split_quote]
    simp [split, isBlank, begun]
  case guarded => exact (List.mem_append.mp h).elim mem_literal mem_literal

-- Runs of quotes, quotes at both ends, an expansion, the end of a command, and no address at all.
example :
    tokens (helperLine "'a ''$b;\n'" "") =
      some [.word [('\'', .escaped), ('a', .single), (' ', .single), ('\'', .escaped),
        ('\'', .escaped), ('$', .single), ('b', .single), (';', .single), ('\n', .single),
        ('\'', .escaped)], .word []] := by
  decide

end FileBroker.Shell
