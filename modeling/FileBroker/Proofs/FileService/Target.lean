import Mathlib
import FileBroker.Proofs.FileService.Escalation

namespace FileBroker.FileService

variable {σ δ : Type} {k : Kernel σ δ} {p : Proxy (Server σ δ) δ} {base : Option δ} {w : σ}

theorem direct_readLink {w' : σ} (hn : 0 ∉ path) (hr : k.call (.readlinkAt none path) w = (.ok target, w')) :
    (direct k).call (.readLink path) w = (.ok target, w') := by
  have hp : plainName path = .ok path := plainName_ok hn
  have hc : (direct k).call (.readLink path) w = _ :=
    (congrArg (fun m : DirectM σ Bytes => m.run.run w) <| lift_then hp _).trans <| attempt_run k _ w
  rw [hc, hr]

theorem readLink_accepted (hne : path ≠ []) (hn : 0 ∉ path) (hlen : path.length < 2 ^ 31) :
    (Call.readLink base path : Call δ Bytes).Accepted where
  noNul    := by simpa [Call.paths] using hn
  nonempty := .inr <| by simpa [Call.paths] using hne.symm
  lengths  := by simpa [Call.paths] using hlen
  device   := by simp [Call.device]

-- The target comes back as the text that it is taken for.
theorem run_readLink (hk : k.Lawful) (hp : p.Attached) (hne : path ≠ []) (hn : 0 ∉ path)
    (hlen : path.length < 2 ^ 31)
    (hr : k.call (.readlinkAt base path) p.helper.world = (.ok target, w)) (ht : target.length ≤ 4096) :
    ∃ q, p.run (Server.peer k) (.readLink base path) =
        (.ok (Utf8.encode (Utf8.decodeLossy target)), q) ∧
      q.Attached ∧ q.helper.world = w := by
  have hd : (Call.readLink base path).direct k p.cwd p.helper.world =
      (.ok (Utf8.encode (Utf8.decodeLossy target)), w) := by
    rw [Call.direct, Call.plan, Plan.run, Call.map_run, hr]
    dsimp only
    rw [List.take_of_length_le ht]
  have hc : (Call.readLink base path : Call δ Bytes).Accepted := readLink_accepted hne hn hlen
  obtain ⟨q, hq, ha, _, hw, _⟩ := Proxy.run_attached hk hp hc
  rw [hd] at hq hw
  exact ⟨q, hq, ha, hw⟩

-- For every link that can be read. Our own call gives its target; through the proxy this comes back
-- unchanged exactly if it is text, and that is also what comes of it when our own call is denied.
theorem readLink_keeps_text (hk : k.Lawful) (hp : p.Attached) (hne : path ≠ []) (hn : 0 ∉ path)
    (hlen : path.length < 2 ^ 31)
    (hr : k.call (.readlinkAt base path) p.helper.world = (.ok target, w)) (ht : target.length < 4096) :
    let privileged := p.run (Server.peer k) (.readLink base path)
    privileged.1 = .ok (Utf8.encode (Utf8.decodeLossy target)) ∧
      (privileged.1 = .ok target ↔ ∃ text, Utf8.encode text = target) ∧
      privileged.2.Attached ∧ privileged.2.helper.world = w ∧
      (base = none →
        (direct k).call (.readLink path) p.helper.world = (.ok target, w) ∧
        ∀ (plain : FileService (Proxy (Server σ δ) δ) δ) (e : ProxyError),
          plain.call (.readLink path) p = (.error e, p) → e.isPermissionDenied = true →
            (escalating plain (Proxy.service (Server.peer k))).call (.readLink path) p = privileged) := by
  intro privileged
  have ⟨q, hq, ha, hw⟩ := run_readLink hk hp hne hn hlen hr (Nat.le_of_lt ht)
  have hprivileged : privileged = (.ok (Utf8.encode (Utf8.decodeLossy target)), q) := hq
  rw [hprivileged]
  refine ⟨rfl, ?_, ha, hw, ?_⟩
  case refine_1 => rw [←Utf8.encode_decodeLossy_iff, Except.ok.injEq]
  case refine_2 =>
    rintro rfl
    refine ⟨direct_readLink hn hr, fun plain e hplain hdenied => ?_⟩
    have hd : isDenied (.readLink path : FileCall δ Bytes) (.error e) = true := hdenied
    have hc : (FileCall.readLink path : FileCall δ Bytes).call = .readLink none path := rfl
    rw [escalating_of_denied hplain <| isDenied_iff.mp hd, ←hq, ←hc]
    rfl

-- A world with two links. Only the target of the first one is text.
def linkKernel : Kernel Unit Nat where
  call
    | .readlinkAt _ path, w => (.ok (if path = [97] then [47] else [47, 0xFF]), w)
    | _,                  w => (.error Errno.noent, w)
  number := id

theorem linkKernel_lawful : linkKernel.Lawful where
  returns {_ s _ _ _} h := by
    cases s
    case readlinkAt =>
      simp only [linkKernel, Prod.mk.injEq, Except.ok.injEq] at h
      split at h
      all_goals
        rw [←h.left]
        simp [Syscall.Returns]
    all_goals cases h
  fails {_ s _ _ _} h := by
    cases s
    all_goals cases h <;> decide

theorem decodeLossy_malformed : Utf8.encode (Utf8.decodeLossy [47, 0xFF]) = [47, 0xEF, 0xBF, 0xBD] := by
  have ha : Utf8.Lead.ofByte? 47 = some ⟨47, 0, 0x80, 0xBF⟩ := rfl
  have hn : Utf8.Lead.ofByte? 0xFF = none := rfl
  simp only [Utf8.decodeLossy, Utf8.scan, Utf8.next, ha, hn, Utf8.tails]
  rfl

-- The second target comes back as another one.
theorem malformed_target_is_changed :
    let p := Proxy.attached 0 () (List.replicate 100 1) [1, 2]
    ((direct linkKernel).call (.readLink [98]) p.helper.world).1 = .ok [47, 0xFF] ∧
      (p.run (Server.peer linkKernel) (.readLink none [98])).1 = .ok [47, 0xEF, 0xBF, 0xBD] := by
  intro p
  have hp : p.Attached := Proxy.attached_attached ..
  have hr : linkKernel.call (.readlinkAt none [98]) p.helper.world = (.ok [47, 0xFF], ()) := rfl
  have ⟨_, hq, _⟩ := run_readLink linkKernel_lawful hp (by decide) (by decide) (by decide) hr (by decide)
  rw [hq, decodeLossy_malformed, direct_readLink (by decide) hr]
  exact ⟨rfl, rfl⟩

-- The first one comes back as it is, also after a denial.
theorem text_target_is_kept :
    let p := Proxy.attached 0 () (List.replicate 100 1) [1, 2]
    let denying : FileService (Proxy (Server Unit Nat) Nat) Nat :=
      { call := fun _ p => (.error (.ofErrno Errno.acces), p) }
    ((escalating denying (Proxy.service (Server.peer linkKernel))).call (.readLink [97]) p).1 = .ok [47] := by
  intro p denying
  have hp : p.Attached := Proxy.attached_attached ..
  have hr : linkKernel.call (.readlinkAt none [97]) p.helper.world = (.ok [47], ()) := rfl
  have ⟨_, ht, _, _, ha⟩ := readLink_keeps_text linkKernel_lawful hp (by decide) (by decide) (by decide) hr
    (by decide)
  rw [(ha rfl).2 denying _ rfl (by decide)]
  exact ht.mpr ⟨"/", rfl⟩

end FileBroker.FileService
