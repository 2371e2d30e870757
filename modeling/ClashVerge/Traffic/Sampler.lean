import Mathlib.Algebra.Order.Field.Rat
import ClashVerge.Library.MovingHead

/-!
# The traffic sampler

The sampler keeps the points of the last minutes. It also collects points in a queue, and of as many
as its ratio says it keeps one averaged point for a longer time. Both buffers are trimmed by moving
their heads. A range of minutes is answered from the raw points, and where it reaches further back
also from averaged points.

Times are in milliseconds. Numbers are exact here, and every reading of the clock is given.
-/

namespace ClashVerge.Traffic

open MovingHead (Buffer)

structure ITrafficDataPoint where
  up : ℚ
  down : ℚ
  timestamp : ℚ
deriving DecidableEq

structure ICompressedDataPoint where
  up : ℚ
  down : ℚ
  timestamp : ℚ
  samples : Nat
deriving DecidableEq

structure ISamplingConfig where
  rawDataMinutes : ℚ
  compressedDataMinutes : ℚ
  compressionRatio : ℚ

structure TrafficDataSampler where
  rawBuffer : Buffer ITrafficDataPoint
  compressedBuffer : Buffer ICompressedDataPoint
  compressionQueue : List ITrafficDataPoint

structure ISamplerStats where
  rawBufferSize : Nat
  compressedBufferSize : Nat
  compressionQueueSize : Nat
  totalMemoryPoints : Nat
deriving DecidableEq

/-- A call of `addDataPoint`, with its two readings of the clock. -/
structure Addition where
  point : ITrafficDataPoint
  rawNow : ℚ
  compressedNow : ℚ

/-- A call of `getDataForTimeRange`, with its two readings of the clock. -/
structure Query where
  minutes : ℚ
  now : ℚ
  upperNow : ℚ

/-- The moment that lies so many minutes back. -/
def back (now minutes : ℚ) : ℚ := now - minutes * 60 * 1000

def average (queue : List ITrafficDataPoint) : ICompressedDataPoint where
  up := (queue.map (·.up)).sum / queue.length
  down := (queue.map (·.down)).sum / queue.length
  timestamp := (queue.map (·.timestamp)).sum / queue.length
  samples := queue.length

namespace TrafficDataSampler

/-- A sampler without points; `clear` leaves it so too. -/
def new : TrafficDataSampler := ⟨.empty, .empty, []⟩

variable (sampler : TrafficDataSampler)

def compressData : TrafficDataSampler :=
  if sampler.compressionQueue.length = 0 then sampler
  else
    { sampler with
      compressedBuffer := sampler.compressedBuffer.push (average sampler.compressionQueue)
      compressionQueue := [] }

def addDataPoint (config : ISamplingConfig) (added : Addition) : TrafficDataSampler :=
  let rawCutoff := back added.rawNow config.rawDataMinutes
  let rawBuffer := ((sampler.rawBuffer.push added.point).trim (·.timestamp ≤ rawCutoff)).compact 512
  let queued : TrafficDataSampler :=
    { sampler with rawBuffer, compressionQueue := sampler.compressionQueue ++ [added.point] }
  let compressed :=
    if config.compressionRatio ≤ queued.compressionQueue.length then queued.compressData else queued
  let compressedCutoff := back added.compressedNow config.compressedDataMinutes
  { compressed with
    compressedBuffer :=
      (compressed.compressedBuffer.trim (·.timestamp ≤ compressedCutoff)).compact 256 }

def getDataForTimeRange (config : ISamplingConfig) (query : Query) : List ITrafficDataPoint :=
  let cutoff := back query.now query.minutes
  let rawData := (sampler.rawBuffer.trim (·.timestamp ≤ cutoff)).live
  if query.minutes ≤ config.rawDataMinutes then rawData
  else
    let compressedCutoffUpper := back query.upperNow config.rawDataMinutes
    let compressedData :=
      ((sampler.compressedBuffer.trim (·.timestamp ≤ cutoff)).live.filter
        (·.timestamp ≤ compressedCutoffUpper)).map fun p => ⟨p.up, p.down, p.timestamp⟩
    (compressedData ++ rawData).mergeSort fun a b => a.timestamp ≤ b.timestamp

def getStats : ISamplerStats where
  rawBufferSize := sampler.rawBuffer.size
  compressedBufferSize := sampler.compressedBuffer.size
  compressionQueueSize := sampler.compressionQueue.length
  totalMemoryPoints := sampler.rawBuffer.size + sampler.compressedBuffer.size

end TrafficDataSampler

/-- The sampler after these calls, and what it then returns for a range. -/
def sampled (config : ISamplingConfig) (history : List Addition) : TrafficDataSampler :=
  history.foldl (fun sampler added => sampler.addDataPoint config added) .new

def returned (config : ISamplingConfig) (history : List Addition) (query : Query) :
    List ITrafficDataPoint :=
  (sampled config history).getDataForTimeRange config query

end ClashVerge.Traffic
