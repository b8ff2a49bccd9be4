import ChainGovernance.Proofs.Collecting
import ChainGovernance.Proofs.Emergency.Policy
import ChainGovernance.Proofs.Encoding

/-!
The requester's signature seals a request.

What the requester signs is the double hash of all the bytes of a request but the last sixty-five,
which are the signature itself. Those bytes determine the petition, so a digest does so too, as far as
the double hash does not collide on them.
-/

namespace ChainGovernance.Emergency.Request

open Wire

variable {limits limits' : Limits} {b b' : Bytes} {r r' : Request}

/-- The bytes of a request in front of the requester's signature. -/
def signedPart (b : Bytes) : Bytes := b.take (b.length - 65)

theorem length_write_signature (s : Signature) : (Signature.sizedFormat.write s).length = 65 := by
  have hwrite : Signature.sizedFormat.write s = 64 :: s.toBytes := rfl
  rw [hwrite, List.length_cons, s.length_eq]

theorem signedPart_encode (r : Request) :
    signedPart r.encode = (Petition.format {}).write r.toPetition := by
  have hencode : r.encode = (Petition.format {}).write r.toPetition ++
      Signature.sizedFormat.write r.requesterSignature := rfl
  rw [signedPart, hencode, List.length_append, length_write_signature, Nat.add_sub_cancel,
    List.take_left]

theorem encode_eq_signedPart_append (r : Request) :
    r.encode = signedPart r.encode ++ Signature.sizedFormat.write r.requesterSignature := by
  rw [signedPart_encode]
  rfl

theorem digest_eq (r : Request) : r.digest = doubleHash (signedPart r.encode) := by
  rw [signedPart_encode]
  rfl

/-- Petitions are told apart by what their requesters sign. -/
theorem toPetition_eq_of_signedPart_eq (hr : Record.request.Readable r)
    (hr' : Record.request.Readable r') (h : signedPart r.encode = signedPart r'.encode) :
    r.toPetition = r'.toPetition := by
  have hr'w := hr'.writable
  obtain ⟨limits, hdecode⟩ := hr
  have hfits : ∀ e ∈ r.toPetition.extents limits, e.Writable ∧ e.Fits :=
    Record.decode_encode_eq_ok_iff.1 hdecode
  have hwritable : ∀ e ∈ r'.toPetition.extents limits, e.Writable := hr'w limits
  have hwrite : (Petition.format limits).write r.toPetition ++ [] =
      (Petition.format limits).write r'.toPetition ++ [] := by
    rw [Petition.write_format, ← signedPart_encode, ← signedPart_encode, h]
  exact ((Petition.restores limits r.toPetition).unique (Petition.restores limits r'.toPetition)
    hfits hwritable hwrite).1

/-- **The requester seals the request.** The digest of a request is hashed from all of its bytes but
the requester's signature. So if the double hash does not collide on those bytes of two requests, one
digest means one petition, and bytes that differ at most in the signature. If both requests are
accepted, under one requester and one signature which is valid for one digest only, their bytes are
the same. -/
theorem requester_seals (hr : (Request.format limits).decode b = .ok r)
    (hr' : (Request.format limits').decode b' = .ok r')
    (hfree : doubleHash (signedPart b) = doubleHash (signedPart b') → signedPart b = signedPart b') :
    (b = signedPart b ++ Signature.sizedFormat.write r.requesterSignature ∧
      r.digest = doubleHash (signedPart b)) ∧
    (r.digest = r'.digest →
      signedPart b = signedPart b' ∧ b.length = b'.length ∧ r.toPetition = r'.toPetition) ∧
    ∀ (valid : PublicKey → Bytes → Signature → Bool) (p p' : Policy),
      p.checkWith valid r = .ok () → p'.checkWith valid r' = .ok () →
      r.requester = r'.requester → r.requesterSignature = r'.requesterSignature →
      (∀ m m' : Bytes, m.length = 32 → m'.length = 32 →
        valid r.requester m r.requesterSignature = true →
        valid r.requester m' r.requesterSignature = true → m = m') →
      b = b' := by
  obtain rfl : b = r.encode := Record.eq_encode_of_decode (k := .request) hr
  obtain rfl : b' = r'.encode := Record.eq_encode_of_decode (k := .request) hr'
  have hsealed (h : r.digest = r'.digest) : signedPart r.encode = signedPart r'.encode := by
    rw [digest_eq, digest_eq] at h
    exact hfree h
  refine ⟨⟨encode_eq_signedPart_append r, digest_eq r⟩, ?_, ?_⟩
  · intro h
    refine ⟨hsealed h, ?_, ?_⟩
    · rw [encode_eq_signedPart_append r, encode_eq_signedPart_append r', List.length_append,
        List.length_append, hsealed h, length_write_signature, length_write_signature]
    · exact toPetition_eq_of_signedPart_eq (Record.readable_of_decode (k := .request) hr)
        (Record.readable_of_decode (k := .request) hr') (hsealed h)
  · intro valid p p' hp hp' hkey hsignature hunique
    have hvalid := (Policy.checkWith_eq_ok_iff.1 hp).requester
    have hvalid' := (Policy.checkWith_eq_ok_iff.1 hp').requester
    rw [← hkey, ← hsignature] at hvalid'
    have hbytes : r.digest.toBytes = r'.digest.toBytes :=
      hunique _ _ r.digest.length_eq r'.digest.length_eq hvalid hvalid'
    have hdigest : r.digest = r'.digest := Digest.eq_of_toBytes_eq hbytes
    rw [encode_eq_signedPart_append r, encode_eq_signedPart_append r', hsealed hdigest, hsignature]

/-- The sample with another signature of its requester. Both of them are valid, since the neutral key
accepts them for anything. -/
def sealedSample : Request :=
  { Record.sample with requesterSignature := Aggregate.neutralSignature }

/-- Here no more is taken for valid than the checks of the sample need: the signature of the requester
stands for nothing but its digest. -/
theorem requester_seals_sample :
    let valid : PublicKey → Bytes → Signature → Bool := fun key m s =>
      key.verify m s && (s ≠ sealedSample.requesterSignature || m = sealedSample.digest.toBytes)
    let b := signedPart Record.sample.encode ++
      Signature.sizedFormat.write Aggregate.neutralSignature
    (Request.format {}).decode b = .ok sealedSample ∧
      (Policy.mk (.single .neutral) true).checkWith valid sealedSample = .ok () ∧
      sealedSample.encode = b ∧ sealedSample.toPetition = Record.sample.toPetition ∧
      sealedSample.encode ≠ Record.sample.encode := by
  intro valid b
  have hb : (Request.format {}).decode b = .ok sealedSample := by decide +kernel
  have hsealed : (Request.format { maxGroups := 1 }).decode sealedSample.encode =
      .ok sealedSample := by decide +kernel
  have hsample : (Request.format {}).decode Record.sample.encode = .ok Record.sample := by
    decide +kernel
  have haccepted : (Policy.mk (.single .neutral) true).checkWith valid sealedSample = .ok () := by
    decide +kernel
  have hpart : signedPart sealedSample.encode = signedPart Record.sample.encode := by
    decide +kernel
  have hpart' : signedPart sealedSample.encode = signedPart b := by decide +kernel
  have hunique : ∀ m m' : Bytes, m.length = 32 → m'.length = 32 →
      valid sealedSample.requester m sealedSample.requesterSignature = true →
      valid sealedSample.requester m' sealedSample.requesterSignature = true → m = m' := by
    intro m m' _ _ hm hm'
    simp only [valid, ne_eq, not_true_eq_false, decide_false, Bool.false_or, Bool.and_eq_true,
      decide_eq_true_eq] at hm hm'
    rw [hm.2, hm'.2]
  refine ⟨hb, haccepted, ?_, ?_, by decide +kernel⟩
  · exact (requester_seals hsealed hb fun _ => hpart').2.2 valid _ _ haccepted haccepted rfl rfl
      hunique
  · exact ((requester_seals hsealed hsample fun _ => hpart).2.1 rfl).2.2

end ChainGovernance.Emergency.Request
