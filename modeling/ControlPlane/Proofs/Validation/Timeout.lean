import ControlPlane.Proofs.Validation.Constraints

/-! # Timeouts of clusters

A connect timeout is to be positive.  On the wire its seconds and its nanoseconds are integers of their
own, of 64 and 32 bits and of any sign, and nobody has brought them to one sign before they are checked.
The check looks at the nanoseconds only if there are no seconds.  That is enough for normalized
timeouts, and in general as long as the nanoseconds do not use up the seconds; with 32 bits they can
use up two seconds at most (`Duration.Overdrawn`).  So an accepted timeout is positive unless it is
overdrawn, and a timeout that is normalized and positive is not rejected (`timeout_positive_iff`). -/

namespace ControlPlane.Validation

namespace Duration

/-- The whole span, in nanoseconds. -/
def total (d : Duration) : ℤ := d.seconds * 10 ^ 9 + d.nanos

/-- The nanoseconds are less than a second and do not go against the seconds. -/
def Normalized (d : Duration) : Prop :=
  |d.nanos| < 10 ^ 9 ∧ (0 < d.seconds → 0 ≤ d.nanos) ∧ (d.seconds < 0 → d.nanos ≤ 0)

/-- The nanoseconds take away all of one or two seconds. -/
def Overdrawn (d : Duration) : Prop :=
  (d.seconds = 1 ∧ d.nanos ≤ -(10 ^ 9)) ∨ (d.seconds = 2 ∧ d.nanos ≤ -(2 * 10 ^ 9))

instance (d : Duration) : Decidable d.Overdrawn := by
  unfold Overdrawn
  exact inferInstance

/-- What the check asks for is a positive span, unless 32 bits of nanoseconds outweigh the seconds. -/
theorem total_pos_iff {d : Duration} (hnanos : -(2 ^ 31) ≤ d.nanos)
    (hsign : 0 < d.seconds ∨ (d.seconds = 0 ∧ 0 < d.nanos)) : 0 < d.total ↔ ¬ d.Overdrawn := by
  unfold total Overdrawn
  omega

/-- A normalized span has the sign that the check sees. -/
theorem Normalized.sign_of_total_pos {d : Duration} (h : d.Normalized) (hpos : 0 < d.total) :
    0 < d.seconds ∨ (d.seconds = 0 ∧ 0 < d.nanos) := by
  obtain ⟨hnanos, hup, hdown⟩ := h
  have hbounds := abs_lt.mp hnanos
  unfold total at hpos
  omega

end Duration

namespace Subject

/-- Nanoseconds are read from 32 bits. -/
theorem le_nanos_readDuration (r : Wire.Record) : -(2 ^ 31) ≤ (readDuration r).nanos := by
  have h := Int.le_bmod (x := Int.ofNat (r.varint 2)) (m := Nat.pow 2 32) (by decide)
  unfold readDuration Wire.signed32
  simpa using h

theorem le_nanos_of_connectTimeout {r : Wire.Record} {d : Duration}
    (h : (readCluster r).connectTimeout = some d) : -(2 ^ 31) ≤ d.nanos := by
  obtain ⟨parts, -, rfl⟩ := Option.map_eq_some_iff.mp h
  exact le_nanos_readDuration parts

end Subject

/-! ### The verdict on a timeout -/

section timeout
variable [NewerMessages] {payload : Payload} {type : MessageType} {m : Cluster} {d : Duration}

/-- The verdict on a cluster is that on the checked fields of its message. -/
theorem validate_cluster (htype : MessageType.parse? payload.typeUrl = some type)
    (hdecode : decode type payload.value = .ok (.cluster m)) :
    (∃ message, m = Subject.readCluster message) ∧
      validate .cluster payload = (check (.cluster m)).map fun _ =>
        ⟨.cluster, type.protocol, type.url, m.name, payload.value⟩ := by
  obtain ⟨protocol, kind⟩ := type
  obtain ⟨typeUrl, bytes⟩ := payload
  unfold decode at hdecode
  split at hdecode
  · cases hdecode
  · rename_i message hread
    have hsubject := Except.ok.inj hdecode
    cases kind <;> simp only [Subject.ofRecord, reduceCtorEq] at hsubject
    obtain rfl := Subject.cluster.inj hsubject
    refine ⟨⟨message, rfl⟩, ?_⟩
    have hdecoded : wireReader ⟨protocol, .cluster⟩ bytes = .ok message := hread
    have hvalidate := Validator.validate_of_decoded htype hdecoded
    rw [Validator.validate_eq_assemble]
    exact hvalidate

omit [NewerMessages] in
/-- A cluster is rejected because of its timeout only if the check sees that the timeout is not
positive. -/
theorem check_cluster_ne (htimeout : m.connectTimeout = some d)
    (hsign : 0 < d.seconds ∨ (d.seconds = 0 ∧ 0 < d.nanos)) :
    check (.cluster m) ≠ .error (.failedValidation .timeoutNotPositive) := by
  intro hcheck
  obtain ⟨v, ⟨p, hbroken, -⟩, hsame⟩ :=
    (Message.check_view_eq_error_iff (m := .cluster m)).mp hcheck
  obtain rfl := Rejection.failedValidation.inj hsame
  cases hbroken with
  | timeout htimeout' h =>
      obtain rfl := Option.some.inj (htimeout.symm.trans htimeout')
      omega

/-- Let a payload be a cluster with a connect timeout, of either protocol.  If it is accepted, its
timeout is positive unless the nanoseconds take away all of its one or two seconds, and in no other case.
If the timeout is normalized and positive, the cluster is not rejected because of it, and it is accepted
if it has a name. -/
theorem timeout_positive_iff (htype : MessageType.parse? payload.typeUrl = some type)
    (hdecode : decode type payload.value = .ok (.cluster m)) (htimeout : m.connectTimeout = some d) :
    (∀ r, validate .cluster payload = .ok r → (0 < d.total ↔ ¬ d.Overdrawn)) ∧
    (d.Normalized → 0 < d.total →
      validate .cluster payload ≠ .error (.failedValidation .timeoutNotPositive) ∧
      (m.name ≠ "" → ∃ r, validate .cluster payload = .ok r)) := by
  obtain ⟨⟨message, hm⟩, hvalidate⟩ := validate_cluster htype hdecode
  rw [hvalidate]
  constructor
  · intro r hr
    obtain ⟨_, hcheck, -⟩ := map_eq_ok_iff.mp hr
    have hacceptable : m.Acceptable := (Message.check_view_eq_ok_iff (m := .cluster m)).mp hcheck
    exact Duration.total_pos_iff (Subject.le_nanos_of_connectTimeout (hm ▸ htimeout))
      (hacceptable.2 d htimeout)
  · intro hnormalized hpos
    have hsign := hnormalized.sign_of_total_pos hpos
    constructor
    · rw [Ne, map_eq_error_iff]
      exact check_cluster_ne htimeout hsign
    · intro hname
      have hacceptable : m.Acceptable :=
        ⟨hname, fun d' htimeout' => Option.some.inj (htimeout.symm.trans htimeout') ▸ hsign⟩
      have hcheck : check (.cluster m) = .ok () :=
        (Message.check_view_eq_ok_iff (m := .cluster m)).mpr hacceptable
      rw [hcheck]
      exact ⟨_, rfl⟩

end timeout

/-- A cluster `a` with a timeout of 3 s and -2147483648 ns. -/
def indebted : Payload where
  typeUrl := "envoy.api.v2.Cluster"
  value := [0x0a, 1, 0x61, 0x22, 13, 8, 3, 16, 128, 128, 128, 128, 248, 255, 255, 255, 255, 1]

/-- The least nanoseconds of all do not use up three seconds. -/
theorem timeout_positive_in_debt :
    decode ⟨.v2, .cluster⟩ indebted.value = .ok (.cluster ⟨"a", some ⟨3, -2147483648⟩⟩) ∧
      (∃ r, validate .cluster indebted = .ok r) ∧ 0 < Duration.total ⟨3, -2147483648⟩ := by
  have htype : MessageType.parse? indebted.typeUrl = some ⟨.v2, .cluster⟩ := by decide +kernel
  have hdecode : decode ⟨.v2, .cluster⟩ indebted.value =
      .ok (.cluster ⟨"a", some ⟨3, -2147483648⟩⟩) := by decide +kernel
  obtain ⟨r, hr⟩ : ∃ r, validate .cluster indebted = .ok r := by
    rw [(validate_cluster htype hdecode).2]
    exact ⟨_, rfl⟩
  obtain ⟨hpositive, -⟩ := timeout_positive_iff htype hdecode rfl
  exact ⟨hdecode, ⟨r, hr⟩, (hpositive r hr).mpr (by decide)⟩

/-- A cluster `a` with a timeout of 1 s and -2000000000 ns. -/
def overdrawn : Payload where
  typeUrl := "type.googleapis.com/envoy.config.cluster.v3.Cluster"
  value := [0x0a, 1, 0x61, 0x22, 13, 8, 1, 16, 128, 216, 169, 198, 248, 255, 255, 255, 255, 1]

/-- A timeout of a second less than nothing is accepted. -/
theorem accepted_overdrawn :
    decode ⟨.v3, .cluster⟩ overdrawn.value = .ok (.cluster ⟨"a", some ⟨1, -2000000000⟩⟩) ∧
      validate .cluster overdrawn =
        .ok ⟨.cluster, .v3, overdrawn.typeUrl, "a", overdrawn.value⟩ ∧
      ¬ 0 < Duration.total ⟨1, -2000000000⟩ := by
  decide +kernel

end ControlPlane.Validation
