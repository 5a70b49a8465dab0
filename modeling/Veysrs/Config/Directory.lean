import Veysrs.Core.Net

/-!
# The rules of a directory

`DirectoryConfig` of `config/veysrule.rs`: what the rule files from the root down to a directory say
together.  `merge` adds the rules of one more file; a file without rules adds nothing
(`merge_default`).
-/

namespace Veysrs

open Core

def maxRewriteRules : ℕ := 128

/-! ## Networks -/

/-- The number of bits of an address. -/
def addressBits : IpAddr → ℕ
  | .v4 .. => 32
  | .v6 _ => 128

/-- `u32::from` and `u128::from`. -/
def addressValue : IpAddr → ℕ
  | .v4 a b c d => [a, b, c, d].foldl (fun n octet => n * 256 + octet.toNat) 0
  | .v6 segments => segments.toList.foldl (fun n segment => n * 65536 + segment.toNat) 0

/-- No more bits are compared than the address has. -/
structure Cidr where
  address : IpAddr
  prefixBits : ℕ
  fits : prefixBits ≤ addressBits address
  deriving DecidableEq, Repr

/-- The shifted mask keeps the upper bits; a version 4 network holds no version 6 address. -/
def Cidr.contains (network : Cidr) (candidate : IpAddr) : Bool :=
  let bits := addressBits network.address
  let mask := if network.prefixBits = 0 then 0
    else ((2 ^ bits - 1) <<< (bits - network.prefixBits)) % 2 ^ bits
  bits = addressBits candidate &&
    addressValue network.address &&& mask = addressValue candidate &&& mask

/-! ## Rules -/

structure RedirectRule where
  source : Str
  target : Str
  status : ℕ
  deriving DecidableEq, Repr

structure RewriteRule where
  pattern : Str
  replacement : Str
  status : Option ℕ
  deriving DecidableEq, Repr

structure DirectoryConfig where
  denyIps : List IpAddr := []
  allowNetworks : List Cidr := []
  denyNetworks : List Cidr := []
  headers : List (Str × Str) := []
  addHeaders : List (Str × Str) := []
  removeHeaders : List Str := []
  redirect404 : Option Str := none
  redirect : Option RedirectRule := none
  rewrites : List RewriteRule := []
  methods : Option (List Str) := none
  indexFiles : Option (List Str) := none
  autoindex : Option Bool := none
  cache : Option Bool := none
  expires : Option ℕ := none
  mimeTypes : List (Str × Str) := []
  errorPages : List (ℕ × Str) := []
  denyHiddenFiles : Option Bool := none
  deriving DecidableEq, Repr

/-! ## Merging -/

section Lists

variable {α κ ν : Type}

/-- Push what no element of the list is the same as. -/
def pushUnless (same : α → α → Bool) (items : List α) (item : α) : List α :=
  if items.any (same · item) then items else items ++ [item]

/-- Give the first entry with the same key a new value, or push the entry. -/
def setFirst (same : κ → κ → Bool) (entry : κ × ν) : List (κ × ν) → List (κ × ν)
  | [] => [entry]
  | e :: rest => if same e.1 entry.1 then (e.1, entry.2) :: rest else e :: setFirst same entry rest

end Lists

/-- A name in `remove_header` is kept, and the headers of that name go. -/
def removeNamed (config : DirectoryConfig) (name : Str) : DirectoryConfig :=
  { config with
    removeHeaders := pushUnless eqIgnoreAsciiCase config.removeHeaders name
    headers := config.headers.filter fun h => !eqIgnoreAsciiCase h.1 name
    addHeaders := config.addHeaders.filter fun h => !eqIgnoreAsciiCase h.1 name }

/-- Merge the configuration of a child into that of its parent. -/
def DirectoryConfig.merge (config child : DirectoryConfig) : DirectoryConfig :=
  let config := { config with
    denyIps := child.denyIps.foldl (pushUnless (· = ·)) config.denyIps
    allowNetworks := child.allowNetworks.foldl (pushUnless (· = ·)) config.allowNetworks
    denyNetworks := child.denyNetworks.foldl (pushUnless (· = ·)) config.denyNetworks
    headers := child.headers.foldl (fun hs h => setFirst eqIgnoreAsciiCase h hs) config.headers
    addHeaders := child.addHeaders.foldl
      (pushUnless fun a b => eqIgnoreAsciiCase a.1 b.1 && a.2 = b.2) config.addHeaders }
  let config := child.removeHeaders.foldl removeNamed config
  { config with
    redirect404 := child.redirect404.or config.redirect404
    redirect := child.redirect.or config.redirect
    rewrites := if child.rewrites = [] then config.rewrites
      else (config.rewrites ++ child.rewrites).take maxRewriteRules
    methods := child.methods.or config.methods
    indexFiles := child.indexFiles.or config.indexFiles
    autoindex := child.autoindex.or config.autoindex
    cache := child.cache.or config.cache
    expires := child.expires.or config.expires
    mimeTypes := child.mimeTypes.foldl (fun ms m => setFirst eqIgnoreAsciiCase m ms) config.mimeTypes
    errorPages := child.errorPages.foldl (fun ps p => setFirst (· = ·) p ps) config.errorPages
    denyHiddenFiles := child.denyHiddenFiles.or config.denyHiddenFiles }

/-- A file without rules changes nothing. -/
@[simp] lemma DirectoryConfig.merge_default (config : DirectoryConfig) :
    config.merge {} = config := by
  simp [merge]

/-- A header goes if any of the names is its name. -/
lemma foldl_filter {α β : Type} (keep : β → α → Bool) (names : List β) (items : List α) :
    names.foldl (fun items name => items.filter (keep name)) items =
      items.filter fun item => names.all fun name => keep name item := by
  induction names generalizing items with
  | nil => simp
  | cons name names ih =>
    rw [List.foldl_cons, ih, List.filter_filter]
    simp only [List.all_cons, Bool.and_comm]

/-- All the names of a file taken out together. -/
lemma foldl_removeNamed (names : List Str) (config : DirectoryConfig) :
    names.foldl removeNamed config =
      { config with
        removeHeaders := names.foldl (pushUnless eqIgnoreAsciiCase) config.removeHeaders
        headers := config.headers.filter fun h =>
          names.all fun name => !eqIgnoreAsciiCase h.1 name
        addHeaders := config.addHeaders.filter fun h =>
          names.all fun name => !eqIgnoreAsciiCase h.1 name } := by
  rw [← foldl_filter fun name (h : Str × Str) => !eqIgnoreAsciiCase h.1 name,
    ← foldl_filter fun name (h : Str × Str) => !eqIgnoreAsciiCase h.1 name]
  induction names generalizing config with
  | nil => rfl
  | cons name names ih => exact ih (removeNamed config name)

/-- A file gives its content types in place of those there were for the same extension. -/
lemma DirectoryConfig.mimeTypes_merge (config child : DirectoryConfig) :
    (config.merge child).mimeTypes =
      child.mimeTypes.foldl (fun ms m => setFirst eqIgnoreAsciiCase m ms) config.mimeTypes := by
  simp only [merge, foldl_removeNamed]

end Veysrs
