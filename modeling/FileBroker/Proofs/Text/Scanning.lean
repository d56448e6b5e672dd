import Mathlib
import FileBroker.Text.Scan

namespace FileBroker.Scan

variable {s : Scan α} {f : α → Scan β}

theorem bind_some (h : s text = some (a, rest)) : (s >>= f) text = f a rest := by
  change (s text).bind _ = _
  rw [h]
  rfl

theorem map_some (g : α → β) (h : s text = some (a, rest)) : (g <$> s) text = some (g a, rest) := by
  change (s text).bind _ = _
  rw [h]
  rfl

theorem get_apply (text : List Char) : (get : Scan (List Char)) text = some (text, text) := rfl

theorem peek?_apply (text : List Char) : peek? text = some (text.head?, text) := rfl

theorem next_cons (c : Char) (rest : List Char) : next (c :: rest) = some (c, rest) := rfl

theorem accept_self (c : Char) (rest : List Char) : accept c (c :: rest) = some (true, rest) := by
  change (if c = c then _ else _ : Scan Bool) (c :: rest) = _
  rw [if_pos rfl]
  rfl

theorem accept_other (h : ∀ d ∈ text.head?, c ≠ d) : accept c text = some (false, text) := by
  cases text
  case nil => rfl
  case cons d rest =>
    change (if c = d then _ else _ : Scan Bool) (d :: rest) = _
    rw [if_neg (h d rfl)]
    rfl

theorem acceptText_other (h : text.toList.isPrefixOf rest = false) :
    acceptText text rest = some (false, rest) := by
  change (if text.toList.isPrefixOf rest then _ else _ : Scan Bool) rest = _
  rw [h]
  rfl

theorem guard_true (h : p) [Decidable p] (text : List Char) :
    (guard p : Scan Unit) text = some ((), text) := by
  rw [guard, if_pos h]
  rfl

theorem expect_self (c : Char) (rest : List Char) : expect c (c :: rest) = some ((), rest) :=
  (bind_some (accept_self c rest)).trans <| guard_true rfl rest

theorem span_apply (p : Char → Bool) (text : List Char) :
    span p text = some (text.takeWhile p, text.dropWhile p) := rfl

theorem span_front (hf : ∀ c ∈ front, p c) (hr : ∀ c ∈ rest.head?, p c = false) :
    span p (front ++ rest) = some (front, rest) := by
  rw [span_apply, List.takeWhile_append_of_pos hf, List.dropWhile_append_of_pos hf]
  cases rest
  case nil  => simp
  case cons => simp [hr _ rfl]

theorem span1_front (hne : front ≠ []) (hf : ∀ c ∈ front, p c) (hr : ∀ c ∈ rest.head?, p c = false) :
    span1 p (front ++ rest) = some (front, rest) := by
  rw [span1, bind_some (span_front hf hr), bind_some (guard_true (by simpa using hne) rest)]
  rfl

theorem take_front (hn : front.length = n) (hf : front.all p) :
    take n p (front ++ rest) = some (front, rest) := by
  have ht : (front ++ rest).take n = front := by rw [←hn, List.take_left]
  have hd : (front ++ rest).drop n = rest := by rw [←hn, List.drop_left]
  rw [take, bind_some (get_apply _), ht, hd, bind_some (guard_true (by simp [hn, hf]) _)]
  rfl

end FileBroker.Scan
