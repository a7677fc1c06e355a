/-
  RedisAgent.Router.Hash — hash.h: the hash of a key.

  MurmurHash2 for 64-bit platforms, with the little-endian loads of the machine
  the proxy runs on.  A key is the byte string `strlen` sees.
-/
import Mathlib.Data.List.Basic

namespace RedisAgent

/-- `const uint64_t m` of `MurmurHash64A`. -/
def murmurM : UInt64 := 0xc6a4a7935bd1e995

/-- `const int r` of `MurmurHash64A`. -/
def murmurR : UInt64 := 47

/-- `*data`: eight bytes, the first the least significant. -/
def murmurLoad (bytes : List UInt8) : UInt64 :=
  (bytes.take 8).foldr (fun b k => (k <<< 8) ||| b.toUInt64) 0

/-- The `while (data != end)` loop over `n` blocks: `h`, and what `data` is left at. -/
def murmurBlocks : Nat → List UInt8 → UInt64 → UInt64 × List UInt8
  | 0, data, h => (h, data)
  | n + 1, data, h =>
      let k := murmurLoad data * murmurM
      let k := (k ^^^ (k >>> murmurR)) * murmurM
      murmurBlocks n (data.drop 8) ((h ^^^ k) * murmurM)

/-- The `switch (len & 7)`: each case falls through to the next lower one. -/
def murmurTail (data2 : List UInt8) (h : UInt64) : UInt64 :=
  if data2 = [] then h
  else
    data2.zipIdx.foldr (fun b h => h ^^^ (b.1.toUInt64 <<< (8 * b.2).toUInt64)) h * murmurM

/-- `MurmurHash64A` -/
def murmurHash64A (key : List UInt8) (seed : UInt32) : UInt64 :=
  let h := seed.toUInt64 ^^^ (key.length.toUInt64 * murmurM)
  let p := murmurBlocks (key.length / 8) key h
  let h := murmurTail p.2 p.1
  let h := (h ^^^ (h >>> murmurR)) * murmurM
  h ^^^ (h >>> murmurR)

/-- `strhash` -/
def strhash (s : List UInt8) : UInt64 := murmurHash64A s 0xba1dba1d

end RedisAgent
