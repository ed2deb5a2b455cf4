import Chiaki.Common

/-!
# The tables of `rpcrypt.c`

A row of a table is written as one number. Of a row of `keys_a` and `keys_b`, which has 0x70 bytes, only the first
0x10 are ever read, and only they are here.
-/

namespace Chiaki

/-- A byte of a row of `width` bytes. -/
def rowByte (width row col : Nat) : UInt8 := UInt8.ofNat (row >>> (8 * (width - 1 - col)))

/-- `keys_a_ps4` -/
def keysAPs4 : List Nat :=
  [0xdf4082a62ed86b2bf56c5ff5fb2169b4, 0x0dc0ac7e04b5f075de5ebafaa62556de, 0x755821fe588fd075f620aa543a4554f3,
   0x621c56f18688dbce10bf3ddee6f50251, 0x1a62eb47920ca7e06c33f584ec6931db, 0xed98d84f233f7729aca5bcd08f2b89b9,
   0x65eebed916eaa96607977143dd64e300, 0xaa10b6ce73e3e38cf85d0e953e1a4fbe, 0x776b50477cfca4d42c4d53c126269238,
   0x696c1e8548ea335bb12809e324477a12, 0xc34de88378f18c6ab3877f67df47c42f, 0x1deea1fded82191e9087abdb80b7b2ab,
   0xf4b5aefc530cec36f0b430ea9bde6031, 0x81f512720235876501ea4ff795bab109, 0xa2ef3aa30c994e6ed464bbd2a03839e8,
   0x36bf20211b345cbd2c64c56f7fb99165, 0xf3d2c55d1d897809bb6a3a0a9c014cd9, 0x197fc238948ae42d7ffff745572198aa,
   0x78cf635357081155651b555e8dce682d, 0x02d32cecf88f14627c784773e8d5402d, 0x409f5654de9665617606b6db16c81c0b,
   0x7677fd847bb43c870109894c0f8e44c0, 0x0b0c1f20aa7552b5bca255d6063ff16a, 0x2bb2e470daeb49e41b1fdf45ee5a6968,
   0x3f9926cb6bacae2bbc75f28d64ffd22b, 0xb427782bcd161081b159fee41b62d1cf, 0x31438f857d59a8d2264ca0fbf8db6a12,
   0x93e2bce726df7788e090c02d20c98cfa, 0xef0fc63b5b4cf11b3592b9749e0f162a, 0xb37ed9111aa341c465191ddb92f43ef4,
   0xe0cda6ee23ef6487655ffb5f6c294af9, 0x80a2e069bc29e34808a6dcbc68d7d784]

/-- `keys_a_ps5` -/
def keysAPs5 : List Nat :=
  [0x7fae83204739b65b239b5ca537c4df59, 0x2ab3fdb232863ce71a96149db1d99072, 0x88ace4147723049e30ec3f27e7c2b176,
   0xa1ee5deac0b968eea261b9b469120990, 0xff23bb189356ff48d8d371a1c3613083, 0x54056b8d42560401d80be7830a66b294,
   0x5217285ce510c77703ba5189736a2868, 0xb16778794c6eb197b3b77f54a7025535, 0xe7566bc33cee8931d5f1235cec453c55,
   0x331720a07617233f76acb4cc075a6222, 0x589615c9f8197ba007b301c8fce0b6f4, 0x30b6688750069854512b2e5715011f85,
   0xbafa39eccfe812883083a62ad208d5ae, 0xfb2f1383ce0a24cb427aa6266d52d69b, 0xabca48539e31055d5078e50d2d877c83,
   0x3fbc19ae901bce021d75d3d16fd1c2f0, 0x48f0b337054dbe6927da04c233a345b1, 0x7171e0f3cc8ba618886d1e2f3c6b6989,
   0xe6c5f900ca329f2087d7ea1518bbe024, 0x450ce7c21abcccff6d3f1557941ca225, 0x61a2b1ef31a8a9021aa289f8ecee97f6,
   0x9d95f3c75dcb12082c49e1d5936752a3, 0x9ee54462eeebbea49a953db3693fda9a, 0xf3e20b7255138b971258f44a5236c642,
   0x6c78c98b44bc858093ba6ce3d23995c6, 0x5814c5a2d9ef2d9d97f7ec55f72e4c0f, 0xe8b8348645fcf461934a7f2c3febd1ce,
   0xc3d21cc10e4a44f774ce00694399bdb7, 0x7d2b99ce223b2dc96f4d38874520c567, 0x1113e6e7866892930a71a55b9501ae09,
   0x17d5d72f9e5686d1989c24a28284adee, 0x07facfea1be76dc1f38a0b214e6647a4]

/-- `keys_b_ps4` -/
def keysBPs4 : List Nat :=
  [0x76659de4f76c451f734247c39232f438, 0x9beeb5ada35685c3bd9befac55981faf, 0x1516fbc309d3ada4eaa34abef2889a34,
   0xbabdac737ae8bcadba5ea6f0b85a512a, 0xc1887daef4b889b5cedd27be6f6c818f, 0x219f9c5d9872a32e744970af857b1466,
   0xbfe825afc2dff3a176f42b8c6f01ce96, 0xba43f7027a0e77154503aa848856b1ee, 0x550f6ec6cd6bc4f0a1056b3fc4c94795,
   0xe9de2e303cd646ca5025f7a266eca56e, 0x418cb0517432ea96ce701c5c2634663a, 0x111ed0d89937ae35fae40b4c520c123a,
   0x1ab0072782c513863db522fb7d2a4d45, 0xf5b3244a2d694651659a37117dde9c7c, 0x1ef870887df92cf4805c6f5573f2a090,
   0x527e2c5036d03bf71fd84a0611f3211f, 0x3af7df1ca885d5f854637536ea305a13, 0x2a8ee9daadb2529474697019c4c836f3,
   0xbd0f6fb9c74279fdac8f1ccc019f453a, 0x712ef1d733a2ae2d896acb63ed8d8310, 0xf587f718d67a605c2b4a190aea3fd15b,
   0xd56dad65bd52d21071ca4be572cdaea7, 0x4024194c511952ccc27063c6341c9714, 0x74ad1e30899f8458ffd58441a66816c8,
   0x24c88ac53642e3d4f7af74ac89ee472e, 0x1d1d7d899c21d0aaa901eeb270c7c311, 0x30ef8cf623bffbd0bb51a9f61da7d2c7,
   0xf9c01508c71067d142132722c3e39466, 0xd413192af29d4ecc2ab3df95c5b69134, 0xdc15d4805bd8ec2e49d7d8450e7dba09,
   0xd86875f3f9928e78be43b928a92edec9, 0x797d6d5b237e5e5d53cf01ea865f8a4b]

/-- `keys_b_ps5` -/
def keysBPs5 : List Nat :=
  [0xe134171df517dae11be60c7335d46b42, 0xf4b69372ae46405d263098f8c7beb72c, 0xcf797090c57af3b13d590859e141ae65,
   0x1d37b5a78b198a50502da9894e6e7dbf, 0x2989b61132db0d7558e29a1a1b08662a, 0x309b97be9f0c1e4eff3ae20615ba579d,
   0x4942db524bbbd9638f6d9d3bd7e349bc, 0xdc76ac59e6e356811d29f96548c37050, 0xd488bf3a7e0022b28a80fef9751ad1cc,
   0x19076062dc4b996495eaf6ccfc97e57f, 0xebfcdaf3423a43b0d224fe04d1314777, 0x55bc0a759082a2182f12263192eb4738,
   0x6e45e09983807402e304e67a64c9088a, 0xf0993426a2a5c815e9916fd7c1c7e6c5, 0x5d2c6b55bb5b44d1f8369b81193a4718,
   0xd7aef2b8b1c1b7d6e89f6a68317dbef3, 0x9ff2e237410986523faca4984e426c81, 0x64316bfdf8017514acb5182fefd5424d,
   0x2d392c1124220fac65bfd6daef8200fb, 0x622c8dd8b6776e1a2aa534daad756488, 0x6cb018cec8ed825d4d1843895706fdc2,
   0x5c82232b437f55ecf8fb23ed49921dcf, 0x3b6aad42071a765eda5a23441d2dc9ec, 0x61f29b4fb412334d6a86e2f0d94d457a,
   0x098a95edd9862af2c6fd722f3d189f7f, 0xab504885710d68559196a28751daf84c, 0xb045bd9f988d5a504765686fc308784c,
   0x90c256a96203d1bd7754706a96cebde0, 0x57cbf44d2c8fb82cae4e314deeb95031, 0x7530ffb1fcef2e0508283d448a4a03e3,
   0x546913d59b68125b4acfa2b9509fc0cc, 0x1bcd10d79229651e028d084e68d370f7]

/-- `ps4_keys_0` -/
def ps4Keys0 : List Nat :=
  [0xbece5df0c17db5d0cb30135daa5623fbc4bcf18f3857fbd4d43f2638b5ceed6a,
   0x21bc38d01e68cc7b45d1be421a08aa16fdb0c0f4da35e912fd21074834c1fc9f,
   0x8cb6cb5db29c84e01afaa0c7eb3a93b3b3f115af13bd21abea5b80506b311d7c,
   0x1d40ba3c560ee7943a5ba14080740aad28cf47df42a669e95ebbc0c00eb2c58a,
   0xee0803d284e591001d460655099d399fd8e7fdad9e9397c5eae7a310a7f2a293,
   0x7f0704b4eebbbf88239c6ea762b14b671eb83b1f64935a99ecdafd0c6ab7fee4,
   0x12763265b84123d117099c242d5c9d1279dea1ce69aca4bc392f573884612d2a,
   0xe804f8d59d0bff7e560cec870a1eabdf938113eecf32025abfb017b7bab57ff0,
   0x017be1cb397e606da4756e299245a64f7400867873befd3ee0d10c6c0b490983,
   0x6c858a1dcb16ce817c49c92c6361dee23f98b273f09aec7b7cf1c9e17fa5198b,
   0x4be838a4347df428fe0d4d11570c95f1afd73480f4eb9b50e66a5deace0c854e,
   0xc55b9344c4249880fcf7729c310bee8967b3a2694fb3795a140270ed50137500,
   0x6af3c6051a003334f5ac9e04dbc200b01bc4f3979d7fbeb8238d99e7cb74374c,
   0x57ecd26949467574af5140a4117bb32f51dae2ef3373121825390309ca49dc8e,
   0xf194d780179e8746c10478d1e53d2588ec723a284168146e10e4c9577590fe22,
   0x1a638ef4b88d1a36fdb6cb72c297529f91721b7557903bfd5a938cdbfca303df]

/-- `ps5_keys_0` -/
def ps5Keys0 : List Nat :=
  [0x24d8c2694c677871ee31bd2b83b21d61c9a78eed9ad36a6b5cc83579a724e217,
   0x06602edff4db271055d9ea164e900cbf406f54a531702d5d1e27df3740ba9d5d,
   0xffe1057080d4b7c2967f2f42eb5a08dec1b55215f6b5f2d969a5c7c47f4664a4,
   0xfd4698a7e12a8e6faf654228b9c26f3ee3e44ee45b9d6010b85ab07d040c4c24,
   0x78bdb8badb8fe3a0756d28c2335b3283dd51b0a58d0966e45cb8700be68214b6,
   0xd2b0c2e055f384ad9d3af877f59d9aa97df1451b9b5525d8c1ff03a5480b1b19,
   0x0cbde0cd48f32c9919d6b8bbd635436f71e3ef3e97b8e940a847e0e001169da7,
   0xe5944b1dd280a27ff29810380db856c37a4b4c85ec2f2389afd5ba9aadb0619c,
   0x51b46d024926a43484203530230a4714321a960ee80f9696d4ba683a671574e0,
   0xd6604c685073142f1159acc832d1db4c8a94753361d1d4fdaa6a6168d8ae314f,
   0xb8077b270ff90bb0c264b372ea8b874009b482b4ad76f936056089c820eba5f1,
   0x510b27a7f0768496ebb12ec28528bc4834d4018d5b2554e0c44fa0fa998d6d7a,
   0x64b1a95da4f9f522eb9af4a87a784b7fe28b0450437d262d1998386a4f2d3015,
   0x2e4fcdb9ce9e8d12c9fe338b84ce5b40e37f726d6c8a6a9e54f1e3645d6e7fac,
   0x1ae7f7fa0022ed2b23fa58c5eb44925dccaa829f23fba6c9652ae07912652c34,
   0xc52316c9cc0530f3960b90671aa7694c3e43249d4e68bd8b756e9d076f1a6aba]

/-- `ps4_keys_1` -/
def ps4Keys1 : List Nat :=
  [0xc848c2b408eb88f75f4a092d591f09cd1c18f47a284a966db3597153757e8250,
   0x57e459b3f4496940eb17c99f179771aec9607ff82e0894e843eada6be5195933,
   0x1f89ae47577b1c66feff95bf556bd59327eaa62467399fd30caa2642e7664dd8,
   0x1875fe440346ee3ef83cb7859703070692ff5917270b21f7057f69900e3891c6,
   0x672348ba088e57dd91d040471c5bbfc8063f96a0dc00e59af53b908066bb0f93,
   0x30072b5645a09ab1b0720ce4dd70dd7c5abfd4e80dca37e50efd12ee799a5ea7,
   0x1e31af1f4652caf342003df2897c1c7760b74a8076474b3fb6912f9cc2f1ad44,
   0x29cb328c0a8d057546a1f8da1aa720de3259fe70b587f392fdb4dff4a6e37d98,
   0x3be1ba18db61d1c2a6ee0825fa868a7bfebc02bd225f2530515d28365a298e52,
   0xeb4914287f0ac46925856bec333357ab5013cfe7737823064d1fbb3811b16e6c,
   0x6fcd4b0e428580bba83968c95bbb4658868857885eea7c37dffd023945892ef2,
   0xe4f008c0b6eb9c6e7a81a32646fee1703c3e117a32ce45027d32cd080706a3a8,
   0xf734feee06b014d66b2d2e01af7711ec1f3138179cd0e0c54da4d6adb9e6e1e3,
   0xe29e44919a5e26caccda4dd7786a75a619adcc62c7b60d14b1beebcb10cfa9ee,
   0xe24208358a5cbcf149fe647803490c85f0e47726d25ef5c13b3d2dcccf2aaced,
   0x8852746dbfb2b9f758511c50f63df2c4470a213047812de4750d8f2d22b06327]

/-- `ps5_keys_1` -/
def ps5Keys1 : List Nat :=
  [0x794d7830fe10524ca8905b9a7e5fd3e113e0f10fa3e7bb457fdc8ed5f1045c78,
   0x51eff8655903398437ae59df23b66034e64be2f54c13c6daf9fdb36584d645ec,
   0x2c00f2eddccb936e6146e5d60194ee78850e685eb55bcdd36341fc81431c6f7c,
   0xbae8bd8631d5707fb54a903e84e171e00299f471e702ed36afde56c290e0aec2,
   0xf9af53c6d862163227fb6e9b48c6eaff6f780222982c1fbfb08ea939bcdf17de,
   0xd70ee17a010ec387fcaae46b0f5b0af118198ae52c369b403099249448d747b2,
   0xaf6b8c409e4d6d3407c1262fbb14f7bc3652bd84fe4a9af48adb3489aaf10d94,
   0x0b92f41ce46c792d6ec0190ad55594140513c26223b3d426c444567acd1cead4,
   0x74b936409f08fb4962059298ad1d9f8a768bd40f214076b61691459366cc12ea,
   0x4df409e2ac33d06f4351073ed7952c1e1f0c24b30e3aef95f5eb77dd20f23598,
   0xf2aea966e613ef5d3a2d66ede21ee9324a40bf37c67029d98ca1614a293dc755,
   0x9c949ec911451028a727d1d3d08479c7a9b0f6af458c3cd4df3bf70da24f1397,
   0x7827f048c0a5ab830105d012d71e123a4e9877aebab14eb53b59ca6da5118091,
   0x9c0769595a53707c9597116d668da3bdbb2db0bf9b10cbc70f5b7e67e2b04bba,
   0x1012b9bc97fd48e48ac10fa1309d5620241a7d5ba0b4be9d384fb456a84d137c,
   0x44e88497eb782c5285e4a2f6f3d9719eeeb81147fba91bc740c6e1196d50a12a]

/-- `echo_a` -/
def echoA : Nat := 0x0149879b65398b394b3a8d48c30aef51

/-- `echo_b` -/
def echoB : Nat := 0xe1ec9c3addbd0885fc0e1d789032c004

/-- `regist_aes_key` -/
def registAesKey : Nat := 0x3f1cc4b6dcbb3ecc50baedef9734c7c9

/-- `hmac_key_ps5` -/
def hmacKeyPs5 : Nat := 0x464687b349ca8ce859c5270f5d7a69d6

/-- `hmac_key_ps4` -/
def hmacKeyPs4 : Nat := 0x20d66f5904ea7c14e557ffc52e488ac8

/-- `hmac_key_ps4_pre10` -/
def hmacKeyPs4Pre10 : Nat := 0xac078883c83a1fe811463af39ee3e377

end Chiaki
