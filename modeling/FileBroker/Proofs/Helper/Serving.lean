import Mathlib
import FileBroker.Helper.Terminal
import FileBroker.Proofs.Channel.Link
import FileBroker.Proofs.Record.RoundTrip

namespace FileBroker.Server

open Channel

variable {σ δ : Type} {k : Kernel σ δ} {s : Server σ δ} {r : Request δ} {reply : Reply δ} {w : σ}

-- A helper that waits for a request.
structure Ready (s : Server σ δ) : Prop where
  idle     : s.channel.Idle
  released : s.gate = .released

-- A turn that finds a request.
theorem turn_ok (hf : ∀ n ∈ r.numbers, Decimal.fits 32 n)
    (hc : s.channel.Carries ((({ cells := [] } : Stream δ).marked r.fds).behind r.layout))
    (ho : s.channel.outgoing = ([], none)) (hx : (r.record.execute k).run s.world = (reply, w)) :
    ∃ channel, s.turn k =
        (.ok (some ()), { s with channel, world := w, served := s.served + 1 }) ∧
      channel.Carries { cells := [] } ∧ channel.outgoing = ([reply.segment], none) := by
  have ⟨d, hd, hdc, hdo⟩ := Record.read_yields hf rfl _ hc
  change s.channel.readRecord = _ at hd
  obtain ⟨hs, hp⟩ := Prod.mk.inj (hdo.trans ho)
  have hr : d.sendReply reply = (.ok (), { d with sent := [reply.segment] }) := by
    simp [sendReply, send, hs, hp]
  refine ⟨{ d with sent := [reply.segment] }, ?_, { hdc with }, ?_⟩
  · simp only [turn, hd, hx, hr]
  · rw [outgoing, hp]

-- A turn that finds nothing.
theorem turn_wait (hc : s.channel.Carries { cells := [] }) :
    ∃ channel, s.turn k = (.error (.frame (.io .wouldBlock)), { s with channel }) ∧
      channel.Carries { cells := [] } ∧ channel.outgoing = s.channel.outgoing := by
  have ⟨d, hd, hdc, hdo⟩ := Record.read_yields_wait rfl rfl rfl _ hc
  change s.channel.readRecord = _ at hd
  exact ⟨d, by simp only [turn, hd], hdc, hdo⟩

theorem unread_pos (hc : s.channel.Carries ((({ cells := [] } : Stream δ).marked r.fds).behind r.layout)) :
    0 < s.unread := by
  have hu := congrArg List.length hc.unread_eq
  have hl : 0 < r.layout.length := List.length_pos_iff.mpr <| layout_ne_nil r
  simp only [Channel.unread, List.length_append, Stream.behind_bytes] at hu
  simp only [unread, Inbound.size]
  omega

theorem serve_one (hf : ∀ n ∈ r.numbers, Decimal.fits 32 n)
    (hc : s.channel.Carries ((({ cells := [] } : Stream δ).marked r.fds).behind r.layout))
    (ho : s.channel.outgoing = ([], none)) (hx : (r.record.execute k).run s.world = (reply, w)) :
    ∃ channel, s.serve k =
        (.error (.frame (.io .wouldBlock)), { s with channel, world := w, served := s.served + 1 }) ∧
      channel.Carries { cells := [] } ∧ channel.outgoing = ([reply.segment], none) := by
  have ⟨d, hd, hdc, hdo⟩ := turn_ok hf hc ho hx
  have ⟨e, he, hec, heo⟩ :=
    turn_wait (k := k) (s := { s with channel := d, world := w, served := s.served + 1 }) hdc
  refine ⟨e, ?_, hec, heo.trans hdo⟩
  obtain ⟨n, hn⟩ := Nat.exists_eq_add_one.mpr <| unread_pos hc
  rw [serve, hn]
  simp only [serveWithin, hd, he]

-- The helper when something was sent to it.
def hears (sent : List (Segment δ)) (s : Server σ δ) : Server σ δ :=
  { s with channel := { s.channel with inbound := sent.foldl Inbound.push s.channel.inbound } }

theorem react_eq (s : Server σ δ) (sent : List (Segment δ)) :
    s.react k sent =
      (let (result, t) := (s.hears sent).live k
       let segments := t.channel.sent
       let t := { t with channel.sent := [] }
       if isWaiting result then ({ segments }, t) else (.leave segments, t)) :=
  rfl

theorem react_waiting {sent : List (Segment δ)}
    (h : (s.hears sent).live k = (.error (.frame (.io .wouldBlock)), t)) :
    s.react k sent = ({ segments := t.channel.sent }, { t with channel.sent := [] }) := by
  rw [react_eq, h]
  rfl

-- The whole reaction to one request.
theorem react_one (hs : s.Ready) (hf : ∀ n ∈ r.numbers, Decimal.fits 32 n)
    (hx : (r.record.execute k).run s.world = (reply, w)) :
    ∃ t, s.react k r.encoded.segments = ({ segments := [reply.segment] }, t) ∧ t.Ready ∧
      t.world = w ∧ t.served = s.served + 1 := by
  have hc := hs.idle.carries.pushAll r.encoded.segments
  have hstream : ({ cells := [] ++ r.encoded.segments.flatMap Segment.cells } : Stream δ) =
      (({ cells := [] } : Stream δ).marked r.fds).behind r.layout := by
    simp [Encoded.segments_cells, Encoded.cells, Stream.behind, Stream.marked, Request.encoded]
  have ho : s.channel.outgoing = ([], none) := by rw [outgoing, hs.idle.sent, hs.idle.patience]
  obtain ⟨d, hd, hdc, hdo⟩ :=
    serve_one (k := k) (s := s.hears r.encoded.segments) hf (hstream ▸ hc) ho hx
  obtain ⟨hsent, hp⟩ := Prod.mk.inj hdo
  have hg : (s.hears r.encoded.segments).gate = .released := hs.released
  have hl : (s.hears r.encoded.segments).live k = (s.hears r.encoded.segments).serve k := by
    rw [live, hg]
  have hr := react_waiting <| hl.trans hd
  rw [hsent] at hr
  refine ⟨_, hr, ⟨idle_of_outgoing { hdc with } ?_, hg⟩, rfl, rfl⟩
  rw [outgoing, hp]

end FileBroker.Server
