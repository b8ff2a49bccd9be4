import ChainGovernance.Proofs.RoundTrip

/-!
Encodings tell records apart.

A record is `Readable` if some limits let it be read from its bytes; whatever has been read is so.
The bytes of readable records determine them, and they also determine where they end.
-/

namespace ChainGovernance

open Wire

namespace Record

variable {k : Record} {limits : Limits} {v w : k.Value} {b r x y : Bytes}

/-- Some limits let a record be read from its bytes. -/
def Readable (k : Record) (v : k.Value) : Prop :=
  ∃ limits, (k.format limits).decode (k.encode v) = .ok v

theorem readable_of_read (h : (k.format limits).read b = .ok (v, r)) : k.Readable v :=
  ⟨limits, decode_encode_eq_ok_iff.2 (k.measured limits h)⟩

theorem readable_of_decode (h : (k.format limits).decode b = .ok v) : k.Readable v :=
  readable_of_read (Format.decode_eq_ok_iff.1 h)

/-- The lengths inside a record do not depend on the limits, only what is allowed for them does. -/
theorem lengths_extents (k : Record) (v : k.Value) (limits limits' : Limits) :
    (k.extents limits v).map (fun e => (e.length, e.capacity)) =
      (k.extents limits' v).map fun e => (e.length, e.capacity) := by
  cases k <;>
    simp [extents, Invocation.extents, UnsignedTransaction.extents, Aggregate.extents,
      Transaction.extents, HeaderFront.extents, Header.extents, Block.extents,
      Emergency.Proposal.extents, Emergency.Petition.extents, Emergency.Request.extents,
      List.map_flatMap]

theorem Readable.writable (h : k.Readable v) (limits : Limits) :
    ∀ e ∈ k.extents limits v, e.Writable := by
  obtain ⟨limits', hv⟩ := h
  intro e he
  have hmem : (e.length, e.capacity) ∈
      (k.extents limits' v).map fun e => (e.length, e.capacity) := by
    rw [lengths_extents k v limits' limits]
    exact List.mem_map_of_mem he
  obtain ⟨d, hd, hde⟩ := List.mem_map.1 hmem
  obtain ⟨hlength, hcapacity⟩ := Prod.mk.inj hde
  have hwritable : d.length < d.capacity := (decode_encode_eq_ok_iff.1 hv d hd).1
  rwa [hlength, hcapacity] at hwritable

/-- **Bytes determine records**, and where their encoding ends. -/
theorem encode_unique (hv : k.Readable v) (hw : k.Readable w)
    (h : k.encode v ++ x = k.encode w ++ y) : v = w ∧ x = y := by
  obtain ⟨limits, hlimits⟩ := hv
  rw [← write_format limits k] at h
  exact (k.restores limits v).unique (k.restores limits w) (decode_encode_eq_ok_iff.1 hlimits)
    (hw.writable limits) h

theorem encode_injective (hv : k.Readable v) (hw : k.Readable w) (h : k.encode v = k.encode w) :
    v = w :=
  (encode_unique hv hw (congrArg (· ++ []) h)).1

end Record

/-- Headers whose payloads have lengths that can be written are told apart by what names them. -/
theorem HeaderFront.encode_injective {v w : HeaderFront}
    (hv : v.consensus.payload.length < 2 ^ 64) (hw : w.consensus.payload.length < 2 ^ 64)
    (h : v.encode = w.encode) : v = w := by
  let limits : Limits := { maxPayload := v.consensus.payload.length }
  have hwrite : (HeaderFront.format limits).write v ++ [] =
      (HeaderFront.format limits).write w ++ [] := by
    rw [HeaderFront.write_format]
    exact congrArg (· ++ []) h
  refine ((HeaderFront.restores limits v).unique (HeaderFront.restores limits w) ?_ ?_ hwrite).1
  · exact List.forall_mem_singleton.2 ⟨hv, Extent.fits_upTo.2 (le_refl _)⟩
  · exact List.forall_mem_singleton.2 hw

end ChainGovernance
