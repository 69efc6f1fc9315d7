import FlowTrace.Failure
import FlowTrace.Json.Reader
import FlowTrace.Report.Wire
import FlowTrace.Text.Basic
import FlowTrace.Text.Sha256

/-! # What a server remembers

Between two requests a server keeps reports in a cache and counts what it was asked for. -/

/-! ## The result cache

A **cache** keeps reports in their written form, under a key made of the language and the code. An
entry that cannot be read back counts as missing. -/

namespace FlowTrace

/-- An entry of a cache. -/
inductive CacheEntry where
  /-- A report in its written form. -/
  | written (json : Text)
  /-- Bytes that hold no report. -/
  | damaged
  deriving DecidableEq, Repr

/-- A **cache**. -/
inductive Cache where
  /-- Keeps nothing. -/
  | absent
  /-- Finds nothing and cannot keep anything. -/
  | broken
  /-- Keeps entries under keys, the latest first. -/
  | kept (entries : List (Text × CacheEntry))
  deriving Repr

namespace Cache

/-- The key of an analysis. -/
def key (language code : Text) : Text := "a:" ++ Sha256.hex (language ++ 0 :: code)

/-- The report that an entry holds. -/
def CacheEntry.report? : CacheEntry → Option Report
  | .written json => (Json.read? json).bind Report.ofJson?
  | .damaged => none

/-- The report under a key. -/
def get? (cache : Cache) (key : Text) : Option Report :=
  match cache with
  | kept entries => ((entries.find? (·.1 == key)).map (·.2)).bind CacheEntry.report?
  | _ => none

/-- Keeps an entry under a key. -/
def putEntry (cache : Cache) (key : Text) (entry : CacheEntry) : Cache :=
  match cache with
  | kept entries => kept ((key, entry) :: entries.filter (·.1 != key))
  | other => other

/-- Keeps a report under a key. A missing report is written as `null`. -/
def put (cache : Cache) (key : Text) (report : Option Report) : Cache × Option Failure :=
  match cache with
  | broken => (broken, some (.plain "put failed"))
  | other => (other.putEntry key (.written (Json.ofOption Report.toJson report).render), none)

/-- The keys in use, in order. -/
def keys : Cache → List Text
  | kept entries => (entries.map (·.1)).mergeSort Text.le
  | _ => []

end Cache

end FlowTrace

/-! ## Counting requests

The **tally** of a server counts requests by endpoint, language and status, analyses by endpoint
and language, and how often the cache had a report. It is shown as lines of text, in the order of
their names and labels. -/

namespace FlowTrace

/-- A counter for each key, in the order of the keys. -/
abbrev Counts := List (List Text × Nat)

namespace Counts

/-- Whether a list of labels comes before another one. -/
def before : List Text → List Text → Bool
  | [], _ => true
  | _ :: _, [] => false
  | a :: as, b :: bs => if a == b then before as bs else Text.le a b

/-- Counts one more for a key. -/
def add (counts : Counts) (key : List Text) : Counts :=
  match counts with
  | [] => [(key, 1)]
  | (other, n) :: rest =>
    if other == key then (other, n + 1) :: rest
    else if before key other then (key, 1) :: (other, n) :: rest
    else (other, n) :: Counts.add rest key

/-- The sum of all counters. -/
def total : Counts → Nat
  | [] => 0
  | (_, n) :: rest => n + total rest

end Counts

/-- The **tally** of a server. -/
structure Tally where
  /-- Requests, by endpoint, language and status. -/
  requests : Counts := []
  /-- Analyses, by endpoint and language. -/
  analyses : Counts := []
  /-- How often the cache had a report. -/
  hits : Nat := 0
  /-- How often it had none. -/
  misses : Nat := 0
  deriving Repr

namespace Tally

/-- A label value inside its quotation marks. -/
def labelText (value : Text) : Text :=
  value.flatMap fun (c : UInt8) =>
    if c == Text.backslash then "\\\\"
    else if c == Text.newline then "\\n"
    else if c == Text.doubleQuote then "\\\""
    else [c]

/-- A line with a counter, its labels and its value. -/
def line (name : Text) (labels : List Text) (values : List Text) (n : Nat) : Text :=
  let shown := List.zipWith (fun label value => label ++ "=\"" ++ labelText value ++ "\"")
    labels values
  let labelled : Text := if shown.isEmpty then [] else "\x7b" ++ Text.joinWith "," shown ++ "\x7d"
  "codevisor_" ++ name ++ labelled ++ " " ++ Text.ofNat n

/-- The lines of a tally. -/
def lines (tally : Tally) : List Text :=
  tally.analyses.map (fun (key, n) =>
      line "analysis_duration_seconds_count" ["endpoint", "language"] key n) ++
    [line "cache_hits_total" [] [] tally.hits, line "cache_misses_total" [] [] tally.misses] ++
    tally.requests.map (fun (key, n) =>
      line "requests_total" ["endpoint", "language", "status"] key n)

/-- Counts a request. -/
def countRequest (tally : Tally) (endpoint language : Text) (status : Nat) : Tally :=
  { tally with requests := tally.requests.add [endpoint, language, Text.ofNat status] }

/-- Counts an analysis. -/
def countAnalysis (tally : Tally) (endpoint language : Text) : Tally :=
  { tally with analyses := tally.analyses.add [endpoint, language] }

/-- Counts a report found in the cache. -/
def countHit (tally : Tally) : Tally := { tally with hits := tally.hits + 1 }

/-- Counts a report missing from the cache. -/
def countMiss (tally : Tally) : Tally := { tally with misses := tally.misses + 1 }

end Tally

end FlowTrace
