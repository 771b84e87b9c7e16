import BracketCss.Cache.Tier
import BracketCss.Digest
import BracketCss.Json.Printer

/-!
# Cache keys

The keys under which caches hold their values, and a memo of keys that were built before. Each
kind of key has a table of bounded size; when a new key finds its table full, a share of the table
goes, the keys least used first and equally used ones in the order in which they came.

## Main definitions

* `CacheKey.parse`, `CacheKey.generation`, `CacheKey.rule`: the keys
* `KeyMemo`: the memo
* `parseKey`, `generationKey`, `ruleKey`, `hashOf`: keys with the help of the memo
* `KeyMemo.optimize`, `KeyMemo.clear`: forgetting keys

## Main results

* `length_dropColdest_le`: evicting keeps no more keys than there were
-/

namespace BracketCss

/-- The kinds of keys. -/
inductive KeyKind where
  /-- Keys of classes. -/
  | parse
  /-- Keys of whole sheets. -/
  | generation
  /-- Keys of rules. -/
  | rule
  /-- Digests of texts. -/
  | hash
  deriving DecidableEq, Repr

namespace KeyKind

/-- The kinds in the order of reports. -/
def all : List KeyKind := [parse, generation, rule, hash]

/-- The name of a kind. -/
def name : KeyKind → String
  | parse => "parse"
  | generation => "generation"
  | rule => "rule"
  | hash => "hash"

/-- The kind of a name. -/
def ofName? (s : String) : Option KeyKind := all.find? fun kind => kind.name == s

end KeyKind

namespace CacheKey

/-- The key of a class name. -/
def parse (name : String) : String := "parse:" ++ name

/-- The text of a list of tokens, the same for every order of the tokens. -/
def tokensText (tokens : List Json) : String :=
  Json.canonical (.strings ((tokens.map Json.canonical).mergeSort fun a b => decide (a ≤ b)))

/-- The key of a sheet, from the digests of its tokens and its options. -/
def generation (tokensDigest optionsDigest : String) : String :=
  "gen:" ++ tokensDigest ++ ":" ++ optionsDigest

/-- The key of a rule, from its selector and the digest of its declarations. -/
def rule (selector declarationsDigest : String) : String :=
  "rule:" ++ selector ++ ":" ++ declarationsDigest

/-- Two texts with a mark between them that neither holds as it stands in a key. -/
def pair (first second : String) : String := first ++ "\x00" ++ second

end CacheKey

/-- A key that was built before. -/
structure MemoEntry where
  /-- What the key was built from. -/
  lookup : String
  /-- The key. -/
  key : String
  /-- How often it was asked for. -/
  uses : Nat
  deriving DecidableEq, Repr

/-- The keys of one kind. -/
structure MemoTable where
  /-- The keys, the oldest first. -/
  entries : List MemoEntry
  /-- Questions for a key that was there. -/
  hits : Nat
  /-- Questions for a key that had to be built. -/
  misses : Nat
  deriving DecidableEq, Repr

namespace MemoTable

/-- No keys. -/
def empty : MemoTable := ⟨[], 0, 0⟩

/-- The entry of a text. -/
def find? (table : MemoTable) (lookup : String) : Option MemoEntry :=
  table.entries.find? fun entry => entry.lookup == lookup

/-- How often a key was asked for. -/
def uses (table : MemoTable) (lookup : String) : Nat := ((table.find? lookup).map (·.uses)).getD 0

/-- Entries in the order in which they go: the least used first, the oldest of those first. -/
def coldest (entries : List MemoEntry) : List MemoEntry :=
  entries.mergeSort fun a b => decide (a.uses ≤ b.uses)

/-- The entries without the `count` coldest. -/
def dropColdest (count : Nat) (entries : List MemoEntry) : List MemoEntry :=
  let gone := ((coldest entries).take count).map (·.lookup)
  entries.filter fun entry => !gone.contains entry.lookup

/-- The table after a question for a key that it holds. -/
def touch (table : MemoTable) (lookup : String) : MemoTable :=
  { table with
    entries := table.entries.map fun entry =>
      if entry.lookup == lookup then { entry with uses := entry.uses + 1 } else entry
    hits := table.hits + 1 }

/-- The table with a new key. -/
def add (table : MemoTable) (lookup key : String) : MemoTable :=
  { table with entries := table.entries ++ [⟨lookup, key, 1⟩] }

/-- The share of questions for keys that were there. -/
def hitRate (table : MemoTable) : Ratio := ⟨table.hits, table.hits + table.misses⟩

theorem length_dropColdest_le (count : Nat) (entries : List MemoEntry) :
    (dropColdest count entries).length ≤ entries.length := List.length_filter_le _ _

end MemoTable

/-- The memo of keys. -/
structure KeyMemo where
  /-- The greatest number of keys of one kind. -/
  capacity : Nat
  /-- The share of a full table that goes at once. -/
  fraction : Decimal
  /-- The keys of classes. -/
  parse : MemoTable
  /-- The keys of sheets. -/
  generation : MemoTable
  /-- The keys of rules. -/
  rule : MemoTable
  /-- The digests. -/
  hash : MemoTable
  /-- All questions so far. -/
  accesses : Nat
  /-- The keys that gave way to new ones. -/
  evictions : Nat
  deriving DecidableEq, Repr

namespace KeyMemo

/-- An empty memo. -/
def ofLimits (capacity : Int) (fraction : Json.Number) : Except CacheFault KeyMemo :=
  let share := fraction.toRat
  if capacity < 1 then .error (.size capacity)
  else if share ≤ 0 ∨ 1 < share then .error (.fraction fraction)
  else .ok ⟨capacity.toNat, fraction.toDecimal, .empty, .empty, .empty, .empty, 0, 0⟩

/-- The table of a kind. -/
def table (memo : KeyMemo) : KeyKind → MemoTable
  | .parse => memo.parse
  | .generation => memo.generation
  | .rule => memo.rule
  | .hash => memo.hash

/-- The memo with the table of a kind replaced. -/
def setTable (memo : KeyMemo) (kind : KeyKind) (table : MemoTable) : KeyMemo :=
  match kind with
  | .parse => { memo with parse := table }
  | .generation => { memo with generation := table }
  | .rule => { memo with rule := table }
  | .hash => { memo with hash := table }

/-- How many keys of a full table with `size` keys go at once. -/
def evictionCount (memo : KeyMemo) (size : Nat) : Nat :=
  max 1 (truncatedProduct size memo.fraction)

/-- The memo with room for a new key of a kind. -/
def makeRoom (memo : KeyMemo) (kind : KeyKind) : KeyMemo :=
  let table := memo.table kind
  if table.entries.length < memo.capacity then memo
  else
    let kept := MemoTable.dropColdest (memo.evictionCount table.entries.length) table.entries
    { memo.setTable kind { table with entries := kept } with
      evictions := memo.evictions + (table.entries.length - kept.length) }

/-- The memo after a question for a key that it does not hold, with room for it. -/
def missed (memo : KeyMemo) (kind : KeyKind) : KeyMemo :=
  let table := memo.table kind
  makeRoom (memo.setTable kind { table with misses := table.misses + 1 }) kind

/-- The key of a text, built by `build` if it is not held. -/
def remember (memo : KeyMemo) (kind : KeyKind) (lookup : String)
    (build : KeyMemo → KeyMemo × String) : KeyMemo × String :=
  let memo := { memo with accesses := memo.accesses + 1 }
  match (memo.table kind).find? lookup with
  | some entry => (memo.setTable kind ((memo.table kind).touch lookup), entry.key)
  | none =>
    let (memo, key) := build (memo.missed kind)
    (memo.setTable kind ((memo.table kind).add lookup key), key)

/-- The digest of a text. -/
def hashOf (memo : KeyMemo) (text : String) : KeyMemo × String :=
  memo.remember .hash text fun memo => (memo, Digest.short text)

/-- The key of a class name. -/
def parseKey (memo : KeyMemo) (name : String) : KeyMemo × String :=
  memo.remember .parse name fun memo => (memo, CacheKey.parse name)

/-- The key of a sheet, from its tokens and its options. -/
def generationKey (memo : KeyMemo) (tokens : List Json) (options : Json) : KeyMemo × String :=
  let tokensText := CacheKey.tokensText tokens
  let optionsText := Json.canonical options
  memo.remember .generation (CacheKey.pair tokensText optionsText) fun memo =>
    let (memo, tokensDigest) := memo.hashOf tokensText
    let (memo, optionsDigest) := memo.hashOf optionsText
    (memo, CacheKey.generation tokensDigest optionsDigest)

/-- The key of a rule, from its selector and its declarations. -/
def ruleKey (memo : KeyMemo) (selector : String) (declarations : Json) : KeyMemo × String :=
  let declarationsText := Json.canonical declarations
  memo.remember .rule (CacheKey.pair selector declarationsText) fun memo =>
    let (memo, digest) := memo.hashOf declarationsText
    (memo, CacheKey.rule selector digest)

/-- The number of keys of all kinds. -/
def size (memo : KeyMemo) : Nat :=
  KeyKind.all.foldl (fun count kind => count + (memo.table kind).entries.length) 0

/-- How often a key was asked for. -/
def uses (memo : KeyMemo) (kind : KeyKind) (lookup : String) : Nat :=
  (memo.table kind).uses lookup

/-- The entries that were used often enough: at least once, and at least a tenth as often as a
key is on average. -/
def wellUsed (memo : KeyMemo) (entries : List MemoEntry) : List MemoEntry :=
  entries.filter fun entry =>
    decide (1 ≤ entry.uses) && decide (memo.accesses ≤ entry.uses * (memo.size * 10))

/-- The memo with every table's entries changed. -/
def mapEntries (memo : KeyMemo) (f : List MemoEntry → List MemoEntry) : KeyMemo :=
  let change (table : MemoTable) : MemoTable := { table with entries := f table.entries }
  { memo with
    parse := change memo.parse
    generation := change memo.generation
    rule := change memo.rule
    hash := change memo.hash }

/-- Forgets the keys that were not used often enough, and counts them. -/
def optimize (memo : KeyMemo) : KeyMemo × Nat :=
  let kept := memo.mapEntries memo.wellUsed
  (kept, memo.size - kept.size)

/-- Forgets all keys; the counts stay. -/
def clear (memo : KeyMemo) : KeyMemo := memo.mapEntries fun _ => []

/-- The books of a memo as a JSON value. -/
def statsJson (memo : KeyMemo) : Json :=
  .object
    [("max_size", .nat memo.capacity), ("total_accesses", .nat memo.accesses),
      ("evictions", .nat memo.evictions),
      ("kinds", .object (KeyKind.all.map fun kind =>
        let table := memo.table kind
        (kind.name, .object
          [("size", .nat table.entries.length), ("hits", .nat table.hits),
            ("misses", .nat table.misses), ("hit_rate", .ratio table.hitRate)])))]

@[simp] theorem table_setTable_self (memo : KeyMemo) (kind : KeyKind) (table : MemoTable) :
    (memo.setTable kind table).table kind = table := by cases kind <;> rfl

theorem table_setTable_of_ne {memo : KeyMemo} {kind other : KeyKind} {table : MemoTable}
    (h : other ≠ kind) : (memo.setTable kind table).table other = memo.table other := by
  cases kind <;> cases other <;> first | rfl | exact absurd rfl h

end KeyMemo

end BracketCss
