import SealedDownload.Retry
import SealedDownload.Failure
import SealedDownload.Url.Reader

/-! Settings of a downloader, their defaults, and the check for values that cannot work. -/

namespace SealedDownload

/-! ### Networks by number -/

/-- The base locators of the networks, by number; each number comes once. -/
structure Origins where
  entries : List (UInt32 × String)
  ordered : entries.Pairwise fun a b => a.1 < b.1
deriving DecidableEq

namespace Origins

/-- Puts an entry into its place; one of the same number is replaced. -/
def place (number : UInt32) (base : String) : List (UInt32 × String) → List (UInt32 × String)
  | [] => [(number, base)]
  | (n, text) :: rest =>
    if number < n then (number, base) :: (n, text) :: rest
    else if number = n then (number, base) :: rest
    else (n, text) :: place number base rest

/-- What is in a list after an entry has been placed. -/
theorem mem_place {number : UInt32} {base : String} {entries : List (UInt32 × String)}
    {e : UInt32 × String} (h : e ∈ place number base entries) : e = (number, base) ∨ e ∈ entries := by
  induction entries with
  | nil => simpa [place] using h
  | cons head rest ih =>
    unfold place at h
    split at h
    · simpa using h
    · split at h
      · rcases List.mem_cons.mp h with h | h
        · exact .inl h
        · exact .inr (List.mem_cons_of_mem _ h)
      · rcases List.mem_cons.mp h with h | h
        · exact .inr (h ▸ List.mem_cons_self)
        · exact (ih h).imp_right (List.mem_cons_of_mem _)

/-- Placing an entry keeps the order. -/
theorem ordered_place {number : UInt32} {base : String} {entries : List (UInt32 × String)}
    (h : entries.Pairwise fun a b => a.1 < b.1) :
    (place number base entries).Pairwise fun a b => a.1 < b.1 := by
  induction entries with
  | nil => simp [place]
  | cons head rest ih =>
    obtain ⟨hall, hrest⟩ := List.pairwise_cons.mp h
    unfold place
    split
    · rename_i hlt
      refine List.pairwise_cons.mpr ⟨fun e he => ?_, h⟩
      rcases List.mem_cons.mp he with he | he
      · exact he ▸ hlt
      · exact UInt32.lt_trans hlt (hall e he)
    · split
      · rename_i heq
        exact List.pairwise_cons.mpr ⟨fun e he => heq ▸ hall e he, hrest⟩
      · rename_i hnlt hne
        refine List.pairwise_cons.mpr ⟨fun e he => ?_, ih hrest⟩
        rcases mem_place he with he | he
        · exact he ▸ UInt32.lt_of_le_of_ne (UInt32.not_lt.mp hnlt) (Ne.symm hne)
        · exact hall e he

/-- No networks. -/
def none : Origins := ⟨[], .nil⟩

/-- The networks with one more, or with another base for one that is there. -/
def insert (origins : Origins) (number : UInt32) (base : String) : Origins :=
  ⟨place number base origins.entries, ordered_place origins.ordered⟩

/-- The networks of a list; of a repeated number the last base counts. -/
def ofList (entries : List (UInt32 × String)) : Origins :=
  entries.foldl (fun origins (number, base) => origins.insert number base) none

/-- The base of a network. -/
def get? (origins : Origins) (number : UInt32) : Option String := origins.entries.lookup number

instance : Inhabited Origins := ⟨none⟩

end Origins

/-! ### Settings -/

/-- How transfers are run. -/
structure TransferSettings where
  /-- how many run at once -/
  maxConcurrent : UInt64
  retry : RetryPolicy
  /-- how long a request may stay silent -/
  timeout : Span
  /-- where files are kept while they are worked on -/
  folder : String
deriving Inhabited

/-- All settings. -/
structure Config where
  transfer : TransferSettings
  /-- the largest backup archive that is accepted -/
  maxBackupSize : UInt64
  origins : Origins
  /-- how many events are kept for slow subscribers -/
  eventCapacity : UInt64
deriving Inhabited

/-- The largest attachment that is accepted unless another ceiling has been given. -/
def defaultAttachmentCeiling : UInt64 := 104857600

namespace RetryPolicy

/-- Sixteen attempts with a quarter of a second between them. -/
def standard : RetryPolicy := ⟨16, .ofMillis 250, .ofMillis 250, 1, false⟩

end RetryPolicy

namespace Origins

/-- The networks that are always there. -/
def standard : Origins :=
  ofList [(0, "https://cdn.signal.org"), (2, "https://cdn2.signal.org"), (3, "https://cdn3.signal.org")]

end Origins

namespace TransferSettings

/-- Four transfers at once, a minute of patience, and files below a given folder. -/
def standard (folder : String) : TransferSettings := ⟨4, .standard, .ofMillis 60000, folder⟩

end TransferSettings

namespace Config

/-- The size of ten gibibytes. -/
def standardBackupSize : UInt64 := 10737418240

/-- How many events are kept if nothing else is said. -/
def standardEventCapacity : UInt64 := 1000

/-- The settings that hold if none are given. -/
def standard (folder : String) : Config :=
  ⟨.standard folder, standardBackupSize, .standard, standardEventCapacity⟩

/-- Whether a multiplier is a positive number. -/
def isPositive (x : Float) : Bool := x.isFinite && 0 < x

/-- A base that is no locator. -/
def badOrigin (number : UInt32) (fault : Url.Fault) : Failure :=
  .config s!"invalid base URL for CDN {number}: {fault.message}" (some "cdns")

/-- Checks the bases of all networks, in the order of their numbers. -/
def checkOrigins : List (UInt32 × String) → Except Failure Unit
  | [] => .ok ()
  | (number, base) :: rest =>
    match Url.ofText base with
    | .ok _ => checkOrigins rest
    | .error fault => .error (badOrigin number fault)

/-- Refuses settings that cannot work, and names the first of them. -/
def check (c : Config) : Except Failure Unit :=
  if c.transfer.maxConcurrent = 0 then
    .error (.config "max_concurrent_transfers must be at least 1" (some "max_concurrent_transfers"))
  else if !isPositive c.transfer.retry.multiplier then
    .error (.config ("backoff_multiplier must be a positive number, got " ++
      Decimal.display c.transfer.retry.multiplier) (some "backoff_multiplier"))
  else if c.eventCapacity = 0 then
    .error (.config "event_channel_capacity must be at least 1" (some "event_channel_capacity"))
  else if c.origins.entries.isEmpty then
    .error (.config "at least one CDN must be configured" (some "cdns"))
  else checkOrigins c.origins.entries

end Config
end SealedDownload
