import LookingGlass.Contracts.Models
import LookingGlass.Foundations.Interaction

/-!
# Traffic

`buildAsync` asks Prometheus nine questions at once and makes one response of the answers. The
first three are answered by one series an instance: `buildNodes` joins them by the instance label
and numbers the instances in the order of `sortKey`. The other six are sums, and only the first
series of each answer counts; the last four of them may fail, which leaves their answer empty.

What Prometheus answers is left open, so a run stands for any behaviour of it.

## Failures

The first five questions must be answered: a failure of one of them is a failure of the whole, after
all of them have been asked. The last four are optional. `optionalAsync` takes the exceptions of the
service for an empty answer and lets all others through, so cancellation is still cancellation.

## The names of the ranges

A request names its range by a text, which is looked up in a table. The endpoint checks the name
before the service looks it up, so the exception of the lookup is never seen; `selectRange_cases`
says so.

## Main results

* `TrafficService.labels_of_buildNodes` — the label of a node is its position and nothing else
* `TrafficService.selectRange_cases` — a range that is let through can be asked for
-/

/-- `x > 0`. -/
def Double.isPositive : Double → Bool
  | .finite value => 0 < value
  | .infinity negative => !negative
  | .nan => false

namespace LookingGlass

open Utf16 Interaction

structure TrafficOptions where
  nodeJob : Str := "node-exporter"
  nodeDeviceRegex : Str := "(eno|ens|enp|eth)[0-9a-z]*"
  wanJob : Str := "opnsense"
  wanDevice : Option Str := none

/-- The labels are a dictionary, read with `List.lookup`. -/
structure PromSeries where
  labels : List (Str × Str)
  points : List TrafficPoint
  deriving DecidableEq

/-- `Labels["instance"]`, where there is one. -/
def PromSeries.instanceLabel (series : PromSeries) : Option Str :=
  series.labels.lookup (ofString "instance")

/-! ### Calls

The clock is read once, before any question, so that all of them have the same end. -/

inductive TrafficOp
  | getUtcNow
  | queryRange (query : Str) (start stop : DateTimeOffset) (stepSeconds : ℤ)

abbrev TrafficOp.Ret : TrafficOp → Type
  | getUtcNow => DateTimeOffset
  | queryRange _ _ _ _ => Except Exn (List PromSeries)

abbrev Prometheus : Interface := ⟨TrafficOp, TrafficOp.Ret⟩

namespace Prometheus

def getUtcNow : Task Prometheus Exn DateTimeOffset := Task.perform (I := Prometheus) .getUtcNow

/-- `IPrometheusClient.QueryRangeAsync`. -/
def queryRangeAsync (query : Str) (start stop : DateTimeOffset) (stepSeconds : ℤ) :
    Task Prometheus Exn (List PromSeries) :=
  Task.call (I := Prometheus) (.queryRange query start stop stepSeconds) fun answer => answer

end Prometheus

namespace TrafficService

/-! ### Nodes

What is left of an instance label in the response is its place in an order. -/

/-- `StringComparer.Ordinal`: code unit by code unit, where a text comes after its beginnings. -/
def ordinalLe (s t : Str) : Bool := decide (s ≤ t)

/-- `Convert.ToHexString`. -/
def toHexString (bytes : List UInt8) : Str :=
  bytes.flatMap fun b =>
    (AddressText.hex (b.toNat / 16) ++ AddressText.hex (b.toNat % 16)).map asciiUpper

def sortKey (rt : Runtime) (instanceLabel : Str) : Str :=
  let host :=
    if instanceLabel.contains (ofChar ':') && instanceLabel.count (ofChar ':') == 1 then
      instanceLabel.takeWhile (· != ofChar ':')
    else instanceLabel
  match rt.tryParseAddress host with
  | some ip => toHexString ip.getAddressBytes
  | none => instanceLabel

def first (series : List PromSeries) : List TrafficPoint := (series.head?.map (·.points)).getD []

/-- The last value that is there. -/
def latest (points : List TrafficPoint) : Option Double :=
  (points.filterMap (·.bitsPerSecond)).getLast?

/-- `Where(...ContainsKey("instance")).ToDictionary(...)`, which throws for a key that occurs
twice. -/
def byInstance (series : List PromSeries) : Except Exn (List (Str × PromSeries)) :=
  let entries := series.filterMap fun s => s.instanceLabel.map fun i => (i, s)
  if (entries.map Prod.fst).Nodup then .ok entries else .error .other

/-- A received series with an instance that also has a transmitted one. -/
structure Joined where
  instanceLabel : Str
  rx : PromSeries
  tx : PromSeries

def join (txByInstance : List (Str × PromSeries)) (rx : PromSeries) : Option Joined := do
  let instanceLabel ← rx.instanceLabel
  let tx ← txByInstance.lookup instanceLabel
  return ⟨instanceLabel, rx, tx⟩

def nodeTraffic (capacityByInstance : List (Str × PromSeries)) (index : ℕ) (node : Joined) :
    NodeTraffic :=
  let speed := (capacityByInstance.lookup node.instanceLabel).bind fun c => latest c.points
  { label := ofString "Node " ++ AddressText.decimal (index + 1)
    capacityBitsPerSecond := if speed.any Double.isPositive then speed else none
    rx := node.rx.points
    tx := node.tx.points }

/-- `OrderBy` is stable: instances with equal keys stay in the order of the answer. -/
def buildNodes (rt : Runtime) (rx tx capacity : List PromSeries) :
    Except Exn (List NodeTraffic) := do
  let txByInstance ← byInstance tx
  let capacityByInstance ← byInstance capacity
  let nodes := rx.filterMap (join txByInstance)
  let sorted := nodes.mergeSort fun m n =>
    ordinalLe (sortKey rt m.instanceLabel) (sortKey rt n.instanceLabel)
  return sorted.mapIdx (nodeTraffic capacityByInstance)

theorem labels_of_buildNodes {rt : Runtime} {rx tx capacity : List PromSeries}
    {nodes : List NodeTraffic} (h : buildNodes rt rx tx capacity = .ok nodes) :
    nodes.map (·.label) =
      (List.range nodes.length).map fun i => ofString "Node " ++ AddressText.decimal (i + 1) := by
  rw [buildNodes] at h
  cases htx : byInstance tx with
  | error e => exact absurd h (by simp [htx, bind, Except.bind])
  | ok txByInstance =>
    cases hcapacity : byInstance capacity with
    | error e => exact absurd h (by simp [htx, hcapacity, bind, Except.bind])
    | ok capacityByInstance =>
      rw [htx, hcapacity] at h
      obtain rfl := Except.ok.inj h
      refine List.ext_getElem (by simp) fun i hi hi' => ?_
      simp [nodeTraffic]

/-! ### Questions

The texts are those of the source, put together from the settings in the same way. -/

/-- The window in ticks and the step in seconds. -/
def ranges : List (Str × ℤ × ℤ) :=
  [("1h", 36000000000, 30), ("6h", 216000000000, 120), ("24h", 864000000000, 300)]

def isValidRange (range : Option Str) : Bool := range.any fun key => (ranges.lookup key).isSome

/-- `Ranges[range]`. -/
def rangeOf (range : Str) : Except Exn (ℤ × ℤ) :=
  match ranges.lookup range with
  | some settings => .ok settings
  | none => .error .other

/-- The ranges that pass the test are those that can be asked for. -/
theorem isValidRange_iff {range : Str} :
    isValidRange (some range) ↔ ∃ settings, rangeOf range = .ok settings := by
  show (ranges.lookup range).isSome ↔ _
  rw [rangeOf]
  cases ranges.lookup range <;> simp

/-- The range of a request, which is an hour if it names none. -/
def selectRange (range : Option Str) : Except Exn Str :=
  let selected := (range.filter (· ≠ [])).getD "1h"
  if isValidRange (some selected) then .ok selected
  else .error (LookingGlassException.validation "The range must be 1h, 6h or 24h.")

/-- **A range that is let through can be asked for**, so that the dictionary never throws. -/
theorem selectRange_cases (range : Option Str) :
    (∃ selected settings, selectRange range = .ok selected ∧ rangeOf selected = .ok settings) ∨
      selectRange range =
        .error (LookingGlassException.validation "The range must be 1h, 6h or 24h.") := by
  rw [selectRange]
  split
  · next hvalid =>
    obtain ⟨settings, hsettings⟩ := isValidRange_iff.mp hvalid
    exact .inl ⟨_, settings, rfl, hsettings⟩
  · exact .inr rfl

/-- A selector with the conditions in braces. -/
def selector (conditions : List Str) : Str := concat ["\x7b", Utf16.join "," conditions, "\x7d"]

/-- `aggregate(rate(metric[rate])) * 8`. -/
def bitRate (aggregate metric rate : Str) : Str :=
  concat [aggregate, "(rate(", metric, "[", rate, "])) * 8"]

def optionalAsync (query : Task Prometheus Exn (List PromSeries)) :
    Task Prometheus Exn (List PromSeries) := do
  try query
  catch
    | .lookingGlass _ => pure []
    | e => throw e

/-- The response, from the answers to the nine questions. All of them are there by now. -/
def respond (rt : Runtime) (range : Str) (step : ℤ) (stop : DateTimeOffset)
    (nodeRx nodeTx capacity clusterRx clusterTx webIn webOut wanRx wanTx : List PromSeries) :
    Except Exn TrafficResponse := do
  let nodes ← buildNodes rt nodeRx nodeTx capacity
  let cluster : DirectionalTraffic := { rx := first clusterRx, tx := first clusterTx }
  let internet : InternetTraffic :=
    { available := 0 < wanRx.length && 0 < wanTx.length, rx := first wanRx, tx := first wanTx }
  let web : WebTraffic :=
    { available := 0 < webIn.length && 0 < webOut.length
      inbound := first webIn
      outbound := first webOut }
  return {
    generatedAt := stop
    range := range
    stepSeconds := step
    current := {
      clusterRxBps := latest cluster.rx
      clusterTxBps := latest cluster.tx
      internetRxBps := if internet.available then latest internet.rx else none
      internetTxBps := if internet.available then latest internet.tx else none
      webInBps := if web.available then latest web.inbound else none
      webOutBps := if web.available then latest web.outbound else none }
    cluster := cluster
    nodes := nodes
    internet := internet
    web := web }

/-- All questions are asked before the first answer is looked at. -/
def buildAsync (rt : Runtime) (settings : TrafficOptions) (range : Str) :
    Task Prometheus Exn TrafficResponse := do
  let (window, step) ← Task.ofExcept (rangeOf range)
  let stop ← Prometheus.getUtcNow
  let start := stop - window
  let rate := concat [Double.decimalInt (max 60 (step * 2)), "s"]
  let device := concat ["device=~\"", settings.nodeDeviceRegex, "\""]
  let job := concat ["job=\"", settings.nodeJob, "\""]
  let query q := Prometheus.queryRangeAsync q start stop step
  let received := "node_network_receive_bytes_total" ++ selector [job, device]
  let transmitted := "node_network_transmit_bytes_total" ++ selector [job, device]
  let speed := "node_network_speed_bytes" ++ selector [job, device]
  let wan := selector [concat ["job=\"", settings.wanJob, "\""],
    concat ["device=\"", settings.wanDevice.getD [], "\""]]
  let wanQuery q :=
    if settings.wanDevice.getD [] = [] then pure [] else optionalAsync (query q)
  let nodeRx ← Task.attempt (query (bitRate "sum by (instance) " received rate))
  let nodeTx ← Task.attempt (query (bitRate "sum by (instance) " transmitted rate))
  let capacity ← Task.attempt (query (concat ["max by (instance) (", speed, ") * 8"]))
  let clusterRx ← Task.attempt (query (bitRate "sum" received rate))
  let clusterTx ← Task.attempt (query (bitRate "sum" transmitted rate))
  let webIn ← Task.attempt (optionalAsync
    (query (bitRate "sum" "nginx_ingress_controller_request_size_sum" rate)))
  let webOut ← Task.attempt (optionalAsync
    (query (bitRate "sum" "nginx_ingress_controller_response_size_sum" rate)))
  let wanRx ← Task.attempt (wanQuery
    (bitRate "sum" ("node_network_receive_bytes_total" ++ wan) rate))
  let wanTx ← Task.attempt (wanQuery
    (bitRate "sum" ("node_network_transmit_bytes_total" ++ wan) rate))
  let _ ← Task.ofExcept
    (gather [nodeRx, nodeTx, capacity, clusterRx, clusterTx, webIn, webOut, wanRx, wanTx])
  Task.ofExcept (respond rt range step stop (← Task.ofExcept nodeRx) (← Task.ofExcept nodeTx)
    (← Task.ofExcept capacity) (← Task.ofExcept clusterRx) (← Task.ofExcept clusterTx)
    (← Task.ofExcept webIn) (← Task.ofExcept webOut) (← Task.ofExcept wanRx)
    (← Task.ofExcept wanTx))

end TrafficService

end LookingGlass
