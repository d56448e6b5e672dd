import Mathlib
import FileBroker.Proofs.Channel.Frame
import FileBroker.Record

namespace FileBroker

open Channel

variable {δ : Type}

-- A request on the wire: the bytes of its record, then one marker with each descriptor.
def Encoded.cells (e : Encoded δ) : List (Cell δ) :=
  e.bytes.map (·, []) ++ e.fds.map fun fd => (marker, [fd])

-- The same as it is sent. No bytes are no segment.
def Encoded.segments (e : Encoded δ) : List (Segment δ) :=
  (if e.bytes.isEmpty then [] else [{ bytes := e.bytes }]) ++
    e.fds.map fun fd => { bytes := [marker], fds := [fd] }

theorem Encoded.segments_cells (e : Encoded δ) : e.segments.flatMap (·.cells) = e.cells := by
  have hm (fds : List δ) :
      fds.flatMap (fun fd => Segment.cells { bytes := [marker], fds := [fd] }) =
        fds.map fun fd => (marker, [fd]) := by
    induction fds
    case nil => rfl
    case cons hi => rw [List.flatMap_cons, hi]; rfl
  have hb : (if e.bytes.isEmpty then [] else [({ bytes := e.bytes } : Segment δ)]).flatMap (·.cells) =
      e.bytes.map (·, []) := by
    split
    case isTrue h => simp [List.isEmpty_iff.mp h]
    case isFalse  => simp [Segment.cells_plain]
  rw [segments, List.flatMap_append, hb, List.flatMap_map, hm, cells]

namespace Channel

-- What the other end still takes of some segments.
def taken (c : Channel δ) (segments : List (Segment δ)) : List (Segment δ) :=
  c.patience.elim segments segments.take

-- `c` when that has been sent.
def emitted (c : Channel δ) (segments : List (Segment δ)) : Channel δ :=
  c.sending (c.sent ++ c.taken segments, c.patience.map (· - (c.taken segments).length))

-- All of the segments get out, or some of them before the other end is found to be gone.
inductive Sends (c : Channel δ) (segments : List (Segment δ)) : Except IoError α → Channel δ → Prop
  | all  : c.taken segments = segments → Sends c segments (.ok a) (c.emitted segments)
  | some : c.taken segments ≠ segments → Sends c segments (.error .brokenPipe) (c.emitted segments)

variable {c d e : Channel δ} {front back : List (Segment δ)}

theorem taken_prefix (c : Channel δ) (segments : List (Segment δ)) : c.taken segments <+: segments := by
  unfold taken
  cases c.patience
  case none   => exact List.prefix_refl _
  case some n => exact List.take_prefix n segments

theorem taken_append (c : Channel δ) (front back : List (Segment δ)) :
    c.taken (front ++ back) = c.taken front ++ (c.emitted front).taken back := by
  have hp : (c.emitted front).patience = c.patience.map (· - (c.taken front).length) := rfl
  unfold taken at hp ⊢
  rw [hp]
  cases c.patience
  case none   => rfl
  case some n =>
    simp only [Option.map_some, Option.elim_some, List.take_append, List.length_take]
    congr 2
    omega

theorem emitted_append (c : Channel δ) (front back : List (Segment δ)) :
    c.emitted (front ++ back) = (c.emitted front).emitted back := by
  have hp : (fun n => n - (c.taken front ++ (c.emitted front).taken back).length) =
      (· - ((c.emitted front).taken back).length) ∘ (· - (c.taken front).length) := by
    funext n
    rw [List.length_append, Function.comp_apply, Nat.sub_sub]
  rw [emitted, taken_append, hp, ←Option.map_map, ←List.append_assoc]
  rfl

theorem emitted_of_taken_nil {segments : List (Segment δ)} (h : c.taken segments = []) :
    c.emitted segments = c := by
  simp [emitted, h, sending]

theorem taken_nil (c : Channel δ) : c.taken [] = [] :=
  List.prefix_nil.mp (c.taken_prefix [])

-- Nothing gets out any more when something has not.
theorem taken_append_of_ne (h : c.taken front ≠ front) (back : List (Segment δ)) :
    (c.emitted front).taken back = [] := by
  have hp : (c.emitted front).patience = c.patience.map (· - (c.taken front).length) := rfl
  unfold taken at h hp ⊢
  rw [hp]
  cases hn : c.patience
  case none   => simp [hn] at h
  case some n =>
    simp only [hn, Option.elim_some, ne_eq, List.take_eq_self_iff, Nat.not_le] at h
    simp only [Option.map_some, Option.elim_some, List.length_take, Nat.min_eq_left (Nat.le_of_lt h),
      Nat.sub_self, List.take_zero]

theorem Sends.refl (c : Channel δ) (a : α) : c.Sends [] (.ok a) c := by
  have h : c.Sends [] (.ok a) (c.emitted []) := .all c.taken_nil
  rwa [emitted_of_taken_nil c.taken_nil] at h

theorem Sends.map {r : Except IoError α} (h : c.Sends front r d) (f : α → β) :
    c.Sends front (r.map f) d := by
  cases h
  case all ht  => exact .all ht
  case some ht => exact .some ht

theorem Sends.trans {r : Except IoError β} (h : c.Sends front (.ok a) d) (h' : d.Sends back r e) :
    c.Sends (front ++ back) r e := by
  cases h
  case all ht =>
    cases h'
    all_goals rw [←emitted_append]
    case all ht'  => exact .all <| by rw [taken_append, ht, ht']
    case some ht' =>
      refine .some fun h => ht' ?_
      rw [taken_append, ht] at h
      exact List.append_cancel_left h

-- Nothing is sent after a failure.
theorem Sends.cut (h : c.Sends front (.error cause : Except IoError α) d) (back : List (Segment δ)) :
    c.Sends (front ++ back) (.error cause : Except IoError β) d := by
  cases h
  case some ht =>
    have hb := taken_append_of_ne ht back
    have ha : c.emitted (front ++ back) = c.emitted front := by rw [emitted_append, emitted_of_taken_nil hb]
    rw [←ha]
    refine .some fun h => ht ?_
    rw [taken_append, hb, List.append_nil] at h
    have hl := congrArg List.length h
    have := (c.taken_prefix front).length_le
    rw [List.length_append] at hl
    exact (c.taken_prefix front).eq_of_length (by omega)

theorem send_sends (c : Channel δ) (s : Segment δ) : c.Sends [s] (c.send s).1 (c.send s).2 := by
  by_cases hp : c.patience = some 0
  case pos =>
    have ht : c.taken [s] = [] := by simp [taken, hp]
    have h : c.Sends [s] (.error .brokenPipe : Except IoError Unit) (c.emitted [s]) := .some (by simp [ht])
    rw [send_broken hp]
    rwa [emitted_of_taken_nil ht] at h
  case neg =>
    have ht : c.taken [s] = [s] := by
      cases hn : c.patience
      case none   => simp [taken, hn]
      case some n =>
        have : n ≠ 0 := fun h => hp (h ▸ hn)
        simp [taken, hn]
        omega
    have h : c.Sends [s] (.ok ()) (c.emitted [s]) := .all ht
    rw [send_ok hp]
    rwa [emitted, ht] at h

theorem write_sends (c : Channel δ) (bytes : Bytes) :
    c.Sends (if bytes.isEmpty then [] else [{ bytes }]) (c.write bytes).1 (c.write bytes).2 := by
  unfold write
  split
  case isTrue  => exact .refl c ()
  case isFalse => exact send_sends c { bytes }

theorem sendFds_sends (c : Channel δ) (fds : List δ) :
    c.Sends (fds.map fun fd => { bytes := [marker], fds := [fd] }) (c.sendFds (fds.map some)).1
      (c.sendFds (fds.map some)).2 := by
  induction fds generalizing c
  case nil           => exact .refl c 0
  case cons fd fds hi =>
    have hs := send_sends c { bytes := [marker], fds := [fd] }
    change c.Sends _ (c.sendFd fd).1 (c.sendFd fd).2 at hs
    change c.Sends ([{ bytes := [marker], fds := [fd] }] ++ _) (c.sendFds (some fd :: fds.map some)).1
      (c.sendFds (some fd :: fds.map some)).2
    rw [sendFds]
    match hf : c.sendFd fd with
    | (.error cause, d) =>
      rw [hf] at hs
      exact hs.cut _
    | (.ok (), d) =>
      rw [hf] at hs
      have hd := (hs.trans (hi d)).map (· + 1)
      dsimp only
      generalize d.sendFds (fds.map some) = result at hd
      match result with
      | (.error _, _) | (.ok _, _) => exact hd

theorem transmit_sends (c : Channel δ) (e : Encoded δ) :
    c.Sends e.segments (c.transmit e).1 (c.transmit e).2 := by
  have hw := write_sends c e.bytes
  unfold transmit
  match hb : c.write e.bytes with
  | (.error cause, d) =>
    rw [hb] at hw
    exact hw.cut _
  | (.ok (), d) =>
    rw [hb] at hw
    have hd := (hw.trans (sendFds_sends d e.fds)).map fun _ => ()
    dsimp only
    generalize d.sendFds (e.fds.map some) = result at hd
    match result with
    | (.error _, _) | (.ok _, _) => exact hd

theorem transmit_snd (c : Channel δ) (e : Encoded δ) : (c.transmit e).2 = c.emitted e.segments := by
  have hs := transmit_sends c e
  generalize (c.transmit e).1 = r, (c.transmit e).2 = d at hs
  cases hs
  case all  => rfl
  case some => rfl

-- All of a request gets out to an end that takes whatever is sent.
theorem transmit_ok (hp : c.patience = none) (e : Encoded δ) :
    c.transmit e = (.ok (), { c with sent := c.sent ++ e.segments }) := by
  have ht : c.taken e.segments = e.segments := by simp [taken, hp]
  have ha : c.emitted e.segments = { c with sent := c.sent ++ e.segments } := by
    simp [emitted, ht, sending, hp]
  have hs := transmit_sends c e
  generalize hr : (c.transmit e).1 = r, hd : (c.transmit e).2 = d at hs
  cases hs
  case all     => exact Prod.ext hr (hd.trans ha)
  case some hn => exact absurd ht hn

end Channel

end FileBroker
