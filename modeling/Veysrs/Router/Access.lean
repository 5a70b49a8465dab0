import Veysrs.Config.Merge
import Veysrs.Router.Handler

/-!
# Who is let in

The check of the peer's address in `handle_request_inner`, over the rules of any number of levels.

A network compares the upper bits of two addresses of one family (`contains_iff_holds`).  Merging
loses no address and no network of a level, so the check is one over all levels together: a deny of
any of them denies, whatever the levels beneath it say (`address_denied_iff`).
-/

namespace Veysrs

open Core List

/-! ## Networks -/

def isIpv4 : IpAddr → Bool
  | .v4 .. => true
  | .v6 _ => false

lemma addressBits_eq_iff {a b : IpAddr} : addressBits a = addressBits b ↔ isIpv4 a = isIpv4 b := by
  cases a <;> cases b <;> simp [addressBits, isIpv4]

lemma addressBits_pos (ip : IpAddr) : 0 < addressBits ip := by
  cases ip <;> simp [addressBits]

/-- A bit of an address, counted from the highest. -/
def addressBit (ip : IpAddr) (i : ℕ) : Bool := (addressValue ip).testBit (addressBits ip - 1 - i)

/-- The address is of the same family and has the same first bits. -/
def Cidr.Holds (network : Cidr) (ip : IpAddr) : Prop :=
  isIpv4 network.address = isIpv4 ip ∧
    ∀ i < network.prefixBits, addressBit network.address i = addressBit ip i

/-- The mask has the upper bits. -/
lemma testBit_mask {bits count : ℕ} (hc : count ≤ bits) (j : ℕ) :
    (if count = 0 then 0 else ((2 ^ bits - 1) <<< (bits - count)) % 2 ^ bits).testBit j =
      decide (bits - count ≤ j ∧ j < bits) := by
  split_ifs with hz
  · rw [Nat.zero_testBit, eq_comm, decide_eq_false_iff_not]
    omega
  · rw [Nat.testBit_mod_two_pow, Nat.testBit_shiftLeft, Nat.testBit_two_pow_sub_one,
      Bool.eq_iff_iff]
    simp only [Bool.and_eq_true, decide_eq_true_eq]
    omega

/-- **A network contains what it holds.** -/
lemma contains_iff_holds (network : Cidr) (ip : IpAddr) :
    network.contains ip = true ↔ network.Holds ip := by
  rw [Cidr.contains, Bool.and_eq_true, decide_eq_true_eq, decide_eq_true_eq, addressBits_eq_iff]
  refine and_congr_right fun hfa => ?_
  have hb := addressBits_eq_iff.mpr hfa
  have hf := network.fits
  constructor
  · intro hm i hi
    have hbit := congrArg (Nat.testBit · (addressBits network.address - 1 - i)) hm
    simp only [Nat.testBit_and, testBit_mask hf] at hbit
    rw [decide_eq_true (by omega), Bool.and_true, Bool.and_true] at hbit
    rw [addressBit, addressBit, ← hb, hbit]
  · intro ha
    refine Nat.eq_of_testBit_eq fun j => ?_
    rw [Nat.testBit_and, Nat.testBit_and, testBit_mask hf]
    by_cases hj : addressBits network.address - network.prefixBits ≤ j ∧
        j < addressBits network.address
    · -- the bit is one of the first
      have hbit := ha (addressBits network.address - 1 - j) (by omega)
      have hin : addressBits network.address - 1 - (addressBits network.address - 1 - j) = j := by
        omega
      rw [addressBit, addressBit, ← hb, hin] at hbit
      rw [hbit]
    · rw [decide_eq_false hj, Bool.and_false, Bool.and_false]

namespace Handler

/-! ## The check -/

/-- Some level denies the address itself or a network that holds it. -/
def Denied (levels : List DirectoryConfig) (ip : IpAddr) : Prop :=
  (∃ level ∈ levels, ip ∈ level.denyIps) ∨
    ∃ level ∈ levels, ∃ network ∈ level.denyNetworks, network.Holds ip

/-- Some level says who is allowed, and none allows the address. -/
def NotAllowed (levels : List DirectoryConfig) (ip : IpAddr) : Prop :=
  (∃ level ∈ levels, ∃ network, network ∈ level.allowNetworks) ∧
    ¬ ∃ level ∈ levels, ∃ network ∈ level.allowNetworks, network.Holds ip

lemma addressReply_isSome (merged : DirectoryConfig) (ip : IpAddr) :
    (addressReply merged (some ip)).isSome = addressDenied merged ip := by
  rw [addressReply, Option.any_some]
  split_ifs with hd
  · rw [hd, Option.isSome_some]
  · rw [Bool.eq_false_iff.mpr hd, Option.isSome_none]

lemma addressDenied_iff (merged : DirectoryConfig) (ip : IpAddr) :
    addressDenied merged ip = true ↔ Denied [merged] ip ∨ NotAllowed [merged] ip := by
  simp only [addressDenied, Denied, NotAllowed, Bool.or_eq_true, Bool.and_eq_true,
    Bool.not_eq_true', any_eq_true, isEmpty_eq_false_iff_exists_mem, any_eq_false,
    contains_iff_holds, contains_iff_mem, mem_singleton, exists_eq_left, not_exists,
    not_and]

/-- A network of the merged levels with some property is one of a level. -/
lemma exists_network_chain {field : DirectoryConfig → List Cidr} {P : Cidr → Prop}
    {first : DirectoryConfig} {rest : List DirectoryConfig}
    (hm : ∀ network, network ∈ field (rest.foldl DirectoryConfig.merge first) ↔
      ∃ level ∈ first :: rest, network ∈ field level) :
    (∃ network ∈ field (rest.foldl DirectoryConfig.merge first), P network) ↔
      ∃ level ∈ first :: rest, ∃ network ∈ field level, P network := by
  constructor
  · rintro ⟨network, hn, hp⟩
    obtain ⟨level, hl, hin⟩ := (hm network).mp hn
    exact ⟨level, hl, network, hin, hp⟩
  · rintro ⟨level, hl, network, hin, hp⟩
    exact ⟨network, (hm network).mpr ⟨level, hl, hin⟩, hp⟩

section Chain

variable (first : DirectoryConfig) (rest : List DirectoryConfig) (ip : IpAddr)

/-- Merged levels deny what one of them denies. -/
lemma denied_chain :
    Denied [rest.foldl DirectoryConfig.merge first] ip ↔ Denied (first :: rest) ip := by
  rw [Denied, Denied, ← exists_network_chain (mem_denyNetworks_chain first rest)]
  simp only [mem_singleton, exists_eq_left, mem_denyIps_chain]

lemma notAllowed_chain :
    NotAllowed [rest.foldl DirectoryConfig.merge first] ip ↔ NotAllowed (first :: rest) ip := by
  have ha := exists_network_chain (P := fun _ => True) (mem_allowNetworks_chain first rest)
  simp only [and_true] at ha
  rw [NotAllowed, NotAllowed, ← ha, ← exists_network_chain (mem_allowNetworks_chain first rest)]
  simp only [mem_singleton, exists_eq_left]

end Chain

/-- **The peer is denied exactly if** a level denies its address or a network that holds it, or some
level says which networks are allowed and no level allows one that holds it.  A network is compared
in its own family, with a shift by fewer bits than there are, and no level lifts the deny of a
level above it. -/
theorem address_denied_iff (first : DirectoryConfig) (rest : List DirectoryConfig) (ip : IpAddr) :
    ((addressReply (rest.foldl DirectoryConfig.merge first) (some ip)).isSome = true ↔
      Denied (first :: rest) ip ∨ NotAllowed (first :: rest) ip) ∧
    (∀ network : Cidr, (network.contains ip = true ↔ network.Holds ip) ∧
      (network.prefixBits ≠ 0 →
        addressBits network.address - network.prefixBits < addressBits network.address)) ∧
    ∀ deeper, Denied (first :: rest) ip →
      (addressReply ((rest ++ deeper).foldl DirectoryConfig.merge first) (some ip)).isSome = true := by
  have hcheck : ∀ levels, (addressReply (levels.foldl DirectoryConfig.merge first)
      (some ip)).isSome = true ↔ Denied (first :: levels) ip ∨ NotAllowed (first :: levels) ip := by
    intro levels
    rw [addressReply_isSome, addressDenied_iff, denied_chain, notAllowed_chain]
  refine ⟨hcheck rest, fun network => ⟨contains_iff_holds network ip, fun hne => ?_⟩, ?_⟩
  · have hpos := addressBits_pos network.address
    omega
  · intro deeper hdenied
    refine (hcheck (rest ++ deeper)).mpr (.inl ?_)
    rcases hdenied with ⟨level, hlevel, hin⟩ | ⟨level, hlevel, hin⟩
    · exact .inl ⟨level, mem_append_left deeper hlevel, hin⟩
    · exact .inr ⟨level, mem_append_left deeper hlevel, hin⟩

end Handler

end Veysrs
