import RegisterVM.Text.Ranges

set_option autoImplicit false

namespace RegisterVM.Text

inductive CaseSpan where
  | shift (lo hi : Nat) (up down : Int)
  | alternating (lo hi : Nat)

def CaseSpan.lo : CaseSpan → Nat
  | .shift lo _ _ _ | .alternating lo _ => lo

def CaseSpan.hi : CaseSpan → Nat
  | .shift _ hi _ _ | .alternating _ hi => hi

def caseSpans : Array CaseSpan := #[
    .shift 0x41 0x5a 0 32, .shift 0x61 0x7a (-32) 0, .shift 0xb5 0xb5 743 0,
    .shift 0xc0 0xd6 0 32, .shift 0xd8 0xde 0 32, .shift 0xe0 0xf6 (-32) 0,
    .shift 0xf8 0xfe (-32) 0, .shift 0xff 0xff 121 0, .alternating 0x100 0x12f,
    .shift 0x130 0x130 0 (-199), .shift 0x131 0x131 (-232) 0, .alternating 0x132 0x137,
    .alternating 0x139 0x148, .alternating 0x14a 0x177, .shift 0x178 0x178 0 (-121),
    .alternating 0x179 0x17e, .shift 0x17f 0x17f (-300) 0, .shift 0x180 0x180 195 0,
    .shift 0x181 0x181 0 210, .alternating 0x182 0x185, .shift 0x186 0x186 0 206,
    .alternating 0x187 0x188, .shift 0x189 0x18a 0 205, .alternating 0x18b 0x18c,
    .shift 0x18e 0x18e 0 79, .shift 0x18f 0x18f 0 202, .shift 0x190 0x190 0 203,
    .alternating 0x191 0x192, .shift 0x193 0x193 0 205, .shift 0x194 0x194 0 207,
    .shift 0x195 0x195 97 0, .shift 0x196 0x196 0 211, .shift 0x197 0x197 0 209,
    .alternating 0x198 0x199, .shift 0x19a 0x19a 163 0, .shift 0x19b 0x19b 42561 0,
    .shift 0x19c 0x19c 0 211, .shift 0x19d 0x19d 0 213, .shift 0x19e 0x19e 130 0,
    .shift 0x19f 0x19f 0 214, .alternating 0x1a0 0x1a5, .shift 0x1a6 0x1a6 0 218,
    .alternating 0x1a7 0x1a8, .shift 0x1a9 0x1a9 0 218, .alternating 0x1ac 0x1ad,
    .shift 0x1ae 0x1ae 0 218, .alternating 0x1af 0x1b0, .shift 0x1b1 0x1b2 0 217,
    .alternating 0x1b3 0x1b6, .shift 0x1b7 0x1b7 0 219, .alternating 0x1b8 0x1b9,
    .alternating 0x1bc 0x1bd, .shift 0x1bf 0x1bf 56 0, .shift 0x1c4 0x1c4 0 2,
    .shift 0x1c5 0x1c5 (-1) 1, .shift 0x1c6 0x1c6 (-2) 0, .shift 0x1c7 0x1c7 0 2,
    .shift 0x1c8 0x1c8 (-1) 1, .shift 0x1c9 0x1c9 (-2) 0, .shift 0x1ca 0x1ca 0 2,
    .shift 0x1cb 0x1cb (-1) 1, .shift 0x1cc 0x1cc (-2) 0, .alternating 0x1cd 0x1dc,
    .shift 0x1dd 0x1dd (-79) 0, .alternating 0x1de 0x1ef, .shift 0x1f1 0x1f1 0 2,
    .shift 0x1f2 0x1f2 (-1) 1, .shift 0x1f3 0x1f3 (-2) 0, .alternating 0x1f4 0x1f5,
    .shift 0x1f6 0x1f6 0 (-97), .shift 0x1f7 0x1f7 0 (-56), .alternating 0x1f8 0x21f,
    .shift 0x220 0x220 0 (-130), .alternating 0x222 0x233, .shift 0x23a 0x23a 0 10795,
    .alternating 0x23b 0x23c, .shift 0x23d 0x23d 0 (-163), .shift 0x23e 0x23e 0 10792,
    .shift 0x23f 0x240 10815 0, .alternating 0x241 0x242, .shift 0x243 0x243 0 (-195),
    .shift 0x244 0x244 0 69, .shift 0x245 0x245 0 71, .alternating 0x246 0x24f,
    .shift 0x250 0x250 10783 0, .shift 0x251 0x251 10780 0, .shift 0x252 0x252 10782 0,
    .shift 0x253 0x253 (-210) 0, .shift 0x254 0x254 (-206) 0, .shift 0x256 0x257 (-205) 0,
    .shift 0x259 0x259 (-202) 0, .shift 0x25b 0x25b (-203) 0, .shift 0x25c 0x25c 42319 0,
    .shift 0x260 0x260 (-205) 0, .shift 0x261 0x261 42315 0, .shift 0x263 0x263 (-207) 0,
    .shift 0x264 0x264 42343 0, .shift 0x265 0x265 42280 0, .shift 0x266 0x266 42308 0,
    .shift 0x268 0x268 (-209) 0, .shift 0x269 0x269 (-211) 0, .shift 0x26a 0x26a 42308 0,
    .shift 0x26b 0x26b 10743 0, .shift 0x26c 0x26c 42305 0, .shift 0x26f 0x26f (-211) 0,
    .shift 0x271 0x271 10749 0, .shift 0x272 0x272 (-213) 0, .shift 0x275 0x275 (-214) 0,
    .shift 0x27d 0x27d 10727 0, .shift 0x280 0x280 (-218) 0, .shift 0x282 0x282 42307 0,
    .shift 0x283 0x283 (-218) 0, .shift 0x287 0x287 42282 0, .shift 0x288 0x288 (-218) 0,
    .shift 0x289 0x289 (-69) 0, .shift 0x28a 0x28b (-217) 0, .shift 0x28c 0x28c (-71) 0,
    .shift 0x292 0x292 (-219) 0, .shift 0x29d 0x29d 42261 0, .shift 0x29e 0x29e 42258 0,
    .shift 0x345 0x345 84 0, .alternating 0x370 0x373, .alternating 0x376 0x377,
    .shift 0x37b 0x37d 130 0, .shift 0x37f 0x37f 0 116, .shift 0x386 0x386 0 38,
    .shift 0x388 0x38a 0 37, .shift 0x38c 0x38c 0 64, .shift 0x38e 0x38f 0 63,
    .shift 0x391 0x3a1 0 32, .shift 0x3a3 0x3ab 0 32, .shift 0x3ac 0x3ac (-38) 0,
    .shift 0x3ad 0x3af (-37) 0, .shift 0x3b1 0x3c1 (-32) 0, .shift 0x3c2 0x3c2 (-31) 0,
    .shift 0x3c3 0x3cb (-32) 0, .shift 0x3cc 0x3cc (-64) 0, .shift 0x3cd 0x3ce (-63) 0,
    .shift 0x3cf 0x3cf 0 8, .shift 0x3d0 0x3d0 (-62) 0, .shift 0x3d1 0x3d1 (-57) 0,
    .shift 0x3d5 0x3d5 (-47) 0, .shift 0x3d6 0x3d6 (-54) 0, .shift 0x3d7 0x3d7 (-8) 0,
    .alternating 0x3d8 0x3ef, .shift 0x3f0 0x3f0 (-86) 0, .shift 0x3f1 0x3f1 (-80) 0,
    .shift 0x3f2 0x3f2 7 0, .shift 0x3f3 0x3f3 (-116) 0, .shift 0x3f4 0x3f4 0 (-60),
    .shift 0x3f5 0x3f5 (-96) 0, .alternating 0x3f7 0x3f8, .shift 0x3f9 0x3f9 0 (-7),
    .alternating 0x3fa 0x3fb, .shift 0x3fd 0x3ff 0 (-130), .shift 0x400 0x40f 0 80,
    .shift 0x410 0x42f 0 32, .shift 0x430 0x44f (-32) 0, .shift 0x450 0x45f (-80) 0,
    .alternating 0x460 0x481, .alternating 0x48a 0x4bf, .shift 0x4c0 0x4c0 0 15,
    .alternating 0x4c1 0x4ce, .shift 0x4cf 0x4cf (-15) 0, .alternating 0x4d0 0x52f,
    .shift 0x531 0x556 0 48, .shift 0x561 0x586 (-48) 0, .shift 0x10a0 0x10c5 0 7264,
    .shift 0x10c7 0x10c7 0 7264, .shift 0x10cd 0x10cd 0 7264, .shift 0x10d0 0x10fa 3008 0,
    .shift 0x10fd 0x10ff 3008 0, .shift 0x13a0 0x13ef 0 38864, .shift 0x13f0 0x13f5 0 8,
    .shift 0x13f8 0x13fd (-8) 0, .shift 0x1c80 0x1c80 (-6254) 0, .shift 0x1c81 0x1c81 (-6253) 0,
    .shift 0x1c82 0x1c82 (-6244) 0, .shift 0x1c83 0x1c84 (-6242) 0, .shift 0x1c85 0x1c85 (-6243) 0,
    .shift 0x1c86 0x1c86 (-6236) 0, .shift 0x1c87 0x1c87 (-6181) 0, .shift 0x1c88 0x1c88 35266 0,
    .alternating 0x1c89 0x1c8a, .shift 0x1c90 0x1cba 0 (-3008), .shift 0x1cbd 0x1cbf 0 (-3008),
    .shift 0x1d79 0x1d79 35332 0, .shift 0x1d7d 0x1d7d 3814 0, .shift 0x1d8e 0x1d8e 35384 0,
    .alternating 0x1e00 0x1e95, .shift 0x1e9b 0x1e9b (-59) 0, .shift 0x1e9e 0x1e9e 0 (-7615),
    .alternating 0x1ea0 0x1eff, .shift 0x1f00 0x1f07 8 0, .shift 0x1f08 0x1f0f 0 (-8),
    .shift 0x1f10 0x1f15 8 0, .shift 0x1f18 0x1f1d 0 (-8), .shift 0x1f20 0x1f27 8 0,
    .shift 0x1f28 0x1f2f 0 (-8), .shift 0x1f30 0x1f37 8 0, .shift 0x1f38 0x1f3f 0 (-8),
    .shift 0x1f40 0x1f45 8 0, .shift 0x1f48 0x1f4d 0 (-8), .shift 0x1f51 0x1f51 8 0,
    .shift 0x1f53 0x1f53 8 0, .shift 0x1f55 0x1f55 8 0, .shift 0x1f57 0x1f57 8 0,
    .shift 0x1f59 0x1f59 0 (-8), .shift 0x1f5b 0x1f5b 0 (-8), .shift 0x1f5d 0x1f5d 0 (-8),
    .shift 0x1f5f 0x1f5f 0 (-8), .shift 0x1f60 0x1f67 8 0, .shift 0x1f68 0x1f6f 0 (-8),
    .shift 0x1f70 0x1f71 74 0, .shift 0x1f72 0x1f75 86 0, .shift 0x1f76 0x1f77 100 0,
    .shift 0x1f78 0x1f79 128 0, .shift 0x1f7a 0x1f7b 112 0, .shift 0x1f7c 0x1f7d 126 0,
    .shift 0x1f80 0x1f87 8 0, .shift 0x1f88 0x1f8f 0 (-8), .shift 0x1f90 0x1f97 8 0,
    .shift 0x1f98 0x1f9f 0 (-8), .shift 0x1fa0 0x1fa7 8 0, .shift 0x1fa8 0x1faf 0 (-8),
    .shift 0x1fb0 0x1fb1 8 0, .shift 0x1fb3 0x1fb3 9 0, .shift 0x1fb8 0x1fb9 0 (-8),
    .shift 0x1fba 0x1fbb 0 (-74), .shift 0x1fbc 0x1fbc 0 (-9), .shift 0x1fbe 0x1fbe (-7205) 0,
    .shift 0x1fc3 0x1fc3 9 0, .shift 0x1fc8 0x1fcb 0 (-86), .shift 0x1fcc 0x1fcc 0 (-9),
    .shift 0x1fd0 0x1fd1 8 0, .shift 0x1fd8 0x1fd9 0 (-8), .shift 0x1fda 0x1fdb 0 (-100),
    .shift 0x1fe0 0x1fe1 8 0, .shift 0x1fe5 0x1fe5 7 0, .shift 0x1fe8 0x1fe9 0 (-8),
    .shift 0x1fea 0x1feb 0 (-112), .shift 0x1fec 0x1fec 0 (-7), .shift 0x1ff3 0x1ff3 9 0,
    .shift 0x1ff8 0x1ff9 0 (-128), .shift 0x1ffa 0x1ffb 0 (-126), .shift 0x1ffc 0x1ffc 0 (-9),
    .shift 0x2126 0x2126 0 (-7517), .shift 0x212a 0x212a 0 (-8383), .shift 0x212b 0x212b 0 (-8262),
    .shift 0x2132 0x2132 0 28, .shift 0x214e 0x214e (-28) 0, .shift 0x2160 0x216f 0 16,
    .shift 0x2170 0x217f (-16) 0, .alternating 0x2183 0x2184, .shift 0x24b6 0x24cf 0 26,
    .shift 0x24d0 0x24e9 (-26) 0, .shift 0x2c00 0x2c2f 0 48, .shift 0x2c30 0x2c5f (-48) 0,
    .alternating 0x2c60 0x2c61, .shift 0x2c62 0x2c62 0 (-10743), .shift 0x2c63 0x2c63 0 (-3814),
    .shift 0x2c64 0x2c64 0 (-10727), .shift 0x2c65 0x2c65 (-10795) 0, .shift 0x2c66 0x2c66 (-10792) 0,
    .alternating 0x2c67 0x2c6c, .shift 0x2c6d 0x2c6d 0 (-10780), .shift 0x2c6e 0x2c6e 0 (-10749),
    .shift 0x2c6f 0x2c6f 0 (-10783), .shift 0x2c70 0x2c70 0 (-10782), .alternating 0x2c72 0x2c73,
    .alternating 0x2c75 0x2c76, .shift 0x2c7e 0x2c7f 0 (-10815), .alternating 0x2c80 0x2ce3,
    .alternating 0x2ceb 0x2cee, .alternating 0x2cf2 0x2cf3, .shift 0x2d00 0x2d25 (-7264) 0,
    .shift 0x2d27 0x2d27 (-7264) 0, .shift 0x2d2d 0x2d2d (-7264) 0, .alternating 0xa640 0xa66d,
    .alternating 0xa680 0xa69b, .alternating 0xa722 0xa72f, .alternating 0xa732 0xa76f,
    .alternating 0xa779 0xa77c, .shift 0xa77d 0xa77d 0 (-35332), .alternating 0xa77e 0xa787,
    .alternating 0xa78b 0xa78c, .shift 0xa78d 0xa78d 0 (-42280), .alternating 0xa790 0xa793,
    .shift 0xa794 0xa794 48 0, .alternating 0xa796 0xa7a9, .shift 0xa7aa 0xa7aa 0 (-42308),
    .shift 0xa7ab 0xa7ab 0 (-42319), .shift 0xa7ac 0xa7ac 0 (-42315), .shift 0xa7ad 0xa7ad 0 (-42305),
    .shift 0xa7ae 0xa7ae 0 (-42308), .shift 0xa7b0 0xa7b0 0 (-42258), .shift 0xa7b1 0xa7b1 0 (-42282),
    .shift 0xa7b2 0xa7b2 0 (-42261), .shift 0xa7b3 0xa7b3 0 928, .alternating 0xa7b4 0xa7c3,
    .shift 0xa7c4 0xa7c4 0 (-48), .shift 0xa7c5 0xa7c5 0 (-42307), .shift 0xa7c6 0xa7c6 0 (-35384),
    .alternating 0xa7c7 0xa7ca, .shift 0xa7cb 0xa7cb 0 (-42343), .alternating 0xa7cc 0xa7db,
    .shift 0xa7dc 0xa7dc 0 (-42561), .alternating 0xa7f5 0xa7f6, .shift 0xab53 0xab53 (-928) 0,
    .shift 0xab70 0xabbf (-38864) 0, .shift 0xff21 0xff3a 0 32, .shift 0xff41 0xff5a (-32) 0,
    .shift 0x10400 0x10427 0 40, .shift 0x10428 0x1044f (-40) 0, .shift 0x104b0 0x104d3 0 40,
    .shift 0x104d8 0x104fb (-40) 0, .shift 0x10570 0x1057a 0 39, .shift 0x1057c 0x1058a 0 39,
    .shift 0x1058c 0x10592 0 39, .shift 0x10594 0x10595 0 39, .shift 0x10597 0x105a1 (-39) 0,
    .shift 0x105a3 0x105b1 (-39) 0, .shift 0x105b3 0x105b9 (-39) 0, .shift 0x105bb 0x105bc (-39) 0,
    .shift 0x10c80 0x10cb2 0 64, .shift 0x10cc0 0x10cf2 (-64) 0, .shift 0x10d50 0x10d65 0 32,
    .shift 0x10d70 0x10d85 (-32) 0, .shift 0x118a0 0x118bf 0 32, .shift 0x118c0 0x118df (-32) 0,
    .shift 0x16e40 0x16e5f 0 32, .shift 0x16e60 0x16e7f (-32) 0, .shift 0x16ea0 0x16eb8 0 27,
    .shift 0x16ebb 0x16ed3 (-27) 0, .shift 0x1e900 0x1e921 0 34, .shift 0x1e922 0x1e943 (-34) 0 ]

def CaseSpan.upper (n : Nat) : CaseSpan → Nat
  | .shift _ _ up _ => (n + up).toNat
  | .alternating lo _ => lo + (n - lo) / 2 * 2

def CaseSpan.lower (n : Nat) : CaseSpan → Nat
  | .shift _ _ _ down => (n + down).toNat
  | .alternating lo _ => lo + (n - lo) / 2 * 2 + 1

def toUpperChar (c : Char) : Char :=
  match findRange caseSpans CaseSpan.lo CaseSpan.hi c.toNat with
  | some s => Char.ofNat (s.upper c.toNat)
  | none => c

def toLowerChar (c : Char) : Char :=
  match findRange caseSpans CaseSpan.lo CaseSpan.hi c.toNat with
  | some s => Char.ofNat (s.lower c.toNat)
  | none => c

def upcase (s : String) : String := String.ofList (s.toList.map toUpperChar)

def downcase (s : String) : String := String.ofList (s.toList.map toLowerChar)

end RegisterVM.Text
