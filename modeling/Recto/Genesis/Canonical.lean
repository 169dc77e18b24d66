import Recto.Genesis.Replay
import Recto.Json.RoundTrip

/-!
# The canonical bytes say what the entry says

The optional fields join the canonical object only when present, and the object
is written with its keys sorted. Equal bytes still come from equal fields: the
text parses back to the object, and the object holds every field under a key of
its own.
-/

namespace Recto
namespace Genesis

/-- Everything an entry says, its signatures apart. -/
def ChainEntry.identity (entry : ChainEntry) : ChainEntry := { entry with signatures := [] }

theorem ChainEntry.identity_eq_iff {e f : ChainEntry} :
    e.identity = f.identity ↔
      e.seq = f.seq ∧ e.op = f.op ∧ e.kind = f.kind ∧ e.pubkey = f.pubkey ∧
        e.algorithm = f.algorithm ∧ e.prev = f.prev ∧ e.metaText = f.metaText := by
  cases e
  cases f
  simp [identity]

section

variable (seq : ℤ) (op kind : String) (pubkey : Bytes) (algorithm : String)
  (prev metaText sealedId : Option String)

theorem plain_signingFields :
    Json.Plain (.obj (signingFields seq op kind pubkey algorithm prev metaText sealedId)) := by
  cases prev <;> cases metaText <;> cases sealedId <;>
    simp [signingFields, Json.Plain, Json.PlainFields]

theorem canon_signingFields :
    Json.canon (.obj (signingFields seq op kind pubkey algorithm prev metaText sealedId)) =
      .obj (Json.sortFields (signingFields seq op kind pubkey algorithm prev metaText sealedId)) := by
  cases prev <;> cases metaText <;> cases sealedId <;>
    simp [signingFields, Json.canon, Json.canonFields]

theorem nodup_signingFields :
    ((signingFields seq op kind pubkey algorithm prev metaText sealedId).map Prod.fst).Nodup := by
  cases metaText <;> cases sealedId <;> simp [signingFields]

theorem lookup_meta :
    (signingFields seq op kind pubkey algorithm prev metaText sealedId).lookup "meta" =
      metaText.map .str := by
  cases metaText <;> cases sealedId <;> rfl

theorem lookup_sealedId :
    (signingFields seq op kind pubkey algorithm prev metaText sealedId).lookup "sealed_id" =
      sealedId.map .str := by
  cases metaText <;> cases sealedId <;> rfl

end

/-- Equal signing bytes carry equal fields. -/
theorem signingBytes_injective {seq seq' : ℤ} {op op' kind kind' : String} {pubkey pubkey' : Bytes}
    {algorithm algorithm' : String} {prev prev' metaText metaText' sealedId sealedId' : Option String}
    (h : signingBytes seq op kind pubkey algorithm prev metaText sealedId =
      signingBytes seq' op' kind' pubkey' algorithm' prev' metaText' sealedId') :
    seq = seq' ∧ op = op' ∧ kind = kind' ∧ pubkey = pubkey' ∧ algorithm = algorithm' ∧
      prev = prev' ∧ metaText = metaText' ∧ sealedId = sealedId' := by
  have hdumps : Json.dumps
        (.obj (signingFields seq op kind pubkey algorithm prev metaText sealedId)) =
      Json.dumps (.obj (signingFields seq' op' kind' pubkey' algorithm' prev' metaText' sealedId')) := by
    have htail := List.append_cancel_left h
    exact encodeUtf8_injective (List.cons.inj htail).2
  have hcanon := Json.canon_eq_of_dumps_eq (plain_signingFields ..).proper (plain_signingFields ..).proper
    hdumps
  rw [canon_signingFields, canon_signingFields] at hcanon
  have hsort := Json.obj.inj hcanon
  have hperm : (signingFields seq op kind pubkey algorithm prev metaText sealedId).Perm
      (signingFields seq' op' kind' pubkey' algorithm' prev' metaText' sealedId') :=
    (Json.sortFields_perm _).symm.trans (hsort ▸ Json.sortFields_perm _)
  have hlookup := lookup_eq_of_perm hperm
    (nodup_signingFields seq op kind pubkey algorithm prev metaText sealedId)
  have hpubkey := Json.str.inj (Option.some.inj (hlookup "pubkey"))
  have hmeta := hlookup "meta"
  rw [lookup_meta, lookup_meta] at hmeta
  have hsealed := hlookup "sealed_id"
  rw [lookup_sealedId, lookup_sealedId] at hsealed
  refine ⟨Json.int.inj (Option.some.inj (hlookup "seq")),
    Json.str.inj (Option.some.inj (hlookup "op")),
    Json.str.inj (Option.some.inj (hlookup "kind")), hex_injective hpubkey,
    Json.str.inj (Option.some.inj (hlookup "algorithm")), ?_,
    Option.map_injective (fun _ _ => Json.str.inj) hmeta,
    Option.map_injective (fun _ _ => Json.str.inj) hsealed⟩
  have hprev : (prev.elim .null .str : Json) = prev'.elim .null .str :=
    Option.some.inj (hlookup "prev")
  cases prev <;> cases prev' <;> simp_all

/-- Entries with the same identity bytes say the same. -/
theorem ChainEntry.identity_eq_of_signingBytes {e f : ChainEntry}
    (h : e.signingBytes = f.signingBytes) : e.identity = f.identity := by
  obtain ⟨hseq, hop, hkind, hpubkey, halgorithm, hprev, hmeta, -⟩ := signingBytes_injective h
  exact identity_eq_iff.mpr ⟨hseq, hop, hkind, hpubkey, halgorithm, hprev, hmeta⟩

theorem ChainEntry.signingBytes_eq_of_identity {e f : ChainEntry} (h : e.identity = f.identity) :
    e.signingBytes = f.signingBytes := by
  obtain ⟨hseq, hop, hkind, hpubkey, halgorithm, hprev, hmeta⟩ := identity_eq_iff.mp h
  simp only [ChainEntry.signingBytes, hseq, hop, hkind, hpubkey, halgorithm, hprev, hmeta]

theorem entryHash_eq_of_identity (env : Primitives) {e f : ChainEntry}
    (h : e.identity = f.identity) : entryHash env e = entryHash env f := by
  simp only [entryHash, ChainEntry.signingBytes_eq_of_identity h]

end Genesis
end Recto
