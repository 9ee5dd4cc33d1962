namespace TableAudit.Text.Compatibility

/-- Triples `first count target`: the `count` characters from `first` on stand for the
    characters from `target` on, one for one. -/
def oneToOneTable : String :=
"170 1 97 181 1 956 186 1 111 383 1 115 688 1 104 689 1 614 690 1 106 691 1 114 692 1 633 693 1
635 694 1 641 695 1 119 696 1 121 736 1 611 737 1 108 738 1 115 739 1 120 740 1 661 832 2 768
835 1 787 884 1 697 903 1 183 976 1 946 977 1 952 978 1 933 981 1 966 982 1 960 1008 1 954 1009
2 961 1012 1 920 1013 1 949 1017 1 931 4348 1 4316 7468 1 65 7469 1 198 7470 1 66 7472 2 68 7474
1 398 7475 8 71 7484 1 79 7485 1 546 7486 1 80 7487 1 82 7488 2 84 7490 1 87 7491 1 97 7492 2
592 7494 1 7426 7495 1 98 7496 2 100 7498 1 601 7499 2 603 7501 1 103 7503 1 107 7504 1 109 7505
1 331 7506 1 111 7507 1 596 7508 2 7446 7510 1 112 7511 2 116 7513 1 7453 7514 1 623 7515 1 118
7516 1 7461 7517 3 946 7520 2 966 7522 1 105 7523 1 114 7524 2 117 7526 2 946 7528 1 961 7529 2
966 7544 1 1085 7579 1 594 7580 1 99 7581 1 597 7582 1 240 7583 1 604 7584 1 102 7585 1 607 7586
1 609 7587 1 613 7588 3 616 7591 1 7547 7592 1 669 7593 1 621 7594 1 7557 7595 1 671 7596 1 625
7597 1 624 7598 4 626 7602 1 632 7603 2 642 7605 1 427 7606 2 649 7608 1 7452 7609 2 651 7611 1
122 7612 3 656 7615 1 952 8126 1 953 8305 1 105 8319 1 110 8336 1 97 8337 1 101 8338 1 111 8339
1 120 8340 1 601 8341 1 104 8342 4 107 8346 1 112 8347 2 115 8450 1 67 8455 1 400 8458 1 103
8459 1 72 8460 1 72 8461 1 72 8462 1 104 8463 1 295 8464 1 73 8465 1 73 8466 1 76 8467 1 108
8469 1 78 8473 3 80 8476 1 82 8477 1 82 8484 1 90 8486 1 937 8488 1 90 8490 1 75 8492 2 66 8495
1 101 8496 2 69 8499 1 77 8500 1 111 8501 4 1488 8505 1 105 8508 1 960 8509 1 947 8510 1 915
8511 1 928 8517 1 68 8518 2 100 8520 2 105 8544 1 73 8548 1 86 8553 1 88 8556 1 76 8557 2 67
8559 1 77 8560 1 105 8564 1 118 8569 1 120 8572 1 108 8573 2 99 8575 1 109 11388 1 106 11389 1
86 11631 1 11617 12344 1 21313 12345 2 21316 12593 2 4352 12595 1 4522 12596 1 4354 12597 2 4524
12599 3 4355 12602 6 4528 12608 1 4378 12609 3 4358 12612 1 4385 12613 10 4361 12623 21 4449
12644 1 4448 12645 2 4372 12647 2 4551 12649 1 4556 12650 1 4558 12651 1 4563 12652 1 4567 12653
1 4569 12654 1 4380 12655 1 4573 12656 1 4575 12657 2 4381 12659 1 4384 12660 2 4386 12662 1
4391 12663 1 4393 12664 5 4395 12669 1 4402 12670 1 4406 12671 1 4416 12672 1 4423 12673 1 4428
12674 2 4593 12676 3 4439 12679 2 4484 12681 1 4488 12682 2 4497 12684 1 4500 12685 1 4510 12686
1 4513 42652 1 1098 42653 1 1100 42864 1 42863 42994 1 67 42995 1 70 42996 1 81 43000 1 294
43001 1 339 43868 1 42791 43869 1 43831 43870 1 619 43871 1 43858 43881 1 653 63744 1 35912
63745 1 26356 63746 1 36554 63747 1 36040 63748 1 28369 63749 1 20018 63750 1 21477 63751 1
40860 63752 1 40860 63753 1 22865 63754 1 37329 63755 1 21895 63756 1 22856 63757 1 25078 63758
1 30313 63759 1 32645 63760 1 34367 63761 1 34746 63762 1 35064 63763 1 37007 63764 1 27138
63765 1 27931 63766 1 28889 63767 1 29662 63768 1 33853 63769 1 37226 63770 1 39409 63771 1
20098 63772 1 21365 63773 1 27396 63774 1 29211 63775 1 34349 63776 1 40478 63777 1 23888 63778
1 28651 63779 1 34253 63780 1 35172 63781 1 25289 63782 1 33240 63783 1 34847 63784 1 24266
63785 1 26391 63786 1 28010 63787 1 29436 63788 1 37070 63789 1 20358 63790 1 20919 63791 1
21214 63792 1 25796 63793 1 27347 63794 1 29200 63795 1 30439 63796 1 32769 63797 1 34310 63798
1 34396 63799 1 36335 63800 1 38706 63801 1 39791 63802 1 40442 63803 1 30860 63804 1 31103
63805 1 32160 63806 1 33737 63807 1 37636 63808 1 40575 63809 1 35542 63810 1 22751 63811 1
24324 63812 1 31840 63813 1 32894 63814 1 29282 63815 1 30922 63816 1 36034 63817 1 38647 63818
1 22744 63819 1 23650 63820 1 27155 63821 1 28122 63822 1 28431 63823 1 32047 63824 1 32311
63825 1 38475 63826 1 21202 63827 1 32907 63828 1 20956 63829 1 20940 63830 1 31260 63831 1
32190 63832 1 33777 63833 1 38517 63834 1 35712 63835 1 25295 63836 1 27138 63837 1 35582 63838
1 20025 63839 1 23527 63840 1 24594 63841 1 29575 63842 1 30064 63843 1 21271 63844 1 30971
63845 1 20415 63846 1 24489 63847 1 19981 63848 1 27852 63849 1 25976 63850 1 32034 63851 1
21443 63852 1 22622 63853 1 30465 63854 1 33865 63855 1 35498 63856 1 27578 63857 1 36784 63858
1 27784 63859 1 25342 63860 1 33509 63861 1 25504 63862 1 30053 63863 1 20142 63864 1 20841
63865 1 20937 63866 1 26753 63867 1 31975 63868 1 33391 63869 1 35538 63870 1 37327 63871 1
21237 63872 1 21570 63873 1 22899 63874 1 24300 63875 1 26053 63876 1 28670 63877 1 31018 63878
1 38317 63879 1 39530 63880 1 40599 63881 1 40654 63882 1 21147 63883 1 26310 63884 1 27511
63885 1 36706 63886 1 24180 63887 1 24976 63888 1 25088 63889 1 25754 63890 1 28451 63891 1
29001 63892 1 29833 63893 1 31178 63894 1 32244 63895 1 32879 63896 1 36646 63897 1 34030 63898
1 36899 63899 1 37706 63900 1 21015 63901 1 21155 63902 1 21693 63903 1 28872 63904 1 35010
63905 1 35498 63906 1 24265 63907 1 24565 63908 1 25467 63909 1 27566 63910 1 31806 63911 1
29557 63912 1 20196 63913 1 22265 63914 1 23527 63915 1 23994 63916 1 24604 63917 1 29618 63918
1 29801 63919 1 32666 63920 1 32838 63921 1 37428 63922 1 38646 63923 1 38728 63924 1 38936
63925 1 20363 63926 1 31150 63927 1 37300 63928 1 38584 63929 1 24801 63930 1 20102 63931 1
20698 63932 1 23534 63933 1 23615 63934 1 26009 63935 1 27138 63936 1 29134 63937 1 30274 63938
1 34044 63939 1 36988 63940 1 40845 63941 1 26248 63942 1 38446 63943 1 21129 63944 1 26491
63945 1 26611 63946 1 27969 63947 1 28316 63948 1 29705 63949 1 30041 63950 1 30827 63951 1
32016 63952 1 39006 63953 1 20845 63954 1 25134 63955 1 38520 63956 1 20523 63957 1 23833 63958
1 28138 63959 1 36650 63960 1 24459 63961 1 24900 63962 1 26647 63963 1 29575 63964 1 38534
63965 1 21033 63966 1 21519 63967 1 23653 63968 1 26131 63969 1 26446 63970 1 26792 63971 1
27877 63972 1 29702 63973 1 30178 63974 1 32633 63975 1 35023 63976 1 35041 63977 1 37324 63978
1 38626 63979 1 21311 63980 1 28346 63981 1 21533 63982 1 29136 63983 1 29848 63984 1 34298
63985 1 38563 63986 1 40023 63987 1 40607 63988 1 26519 63989 1 28107 63990 1 33256 63991 1
31435 63992 1 31520 63993 1 31890 63994 1 29376 63995 1 28825 63996 1 35672 63997 1 20160 63998
1 33590 63999 1 21050 64000 1 20999 64001 1 24230 64002 1 25299 64003 1 31958 64004 1 23429
64005 1 27934 64006 1 26292 64007 1 36667 64008 1 34892 64009 1 38477 64010 1 35211 64011 1
24275 64012 1 20800 64013 1 21952 64016 1 22618 64018 1 26228 64021 1 20958 64022 1 29482 64023
1 30410 64024 1 31036 64025 1 31070 64026 1 31077 64027 1 31119 64028 1 38742 64029 1 31934
64030 1 32701 64032 1 34322 64034 1 35576 64037 1 36920 64038 1 37117 64042 1 39151 64043 1
39164 64044 1 39208 64045 1 40372 64046 1 37086 64047 1 38583 64048 1 20398 64049 1 20711 64050
1 20813 64051 1 21193 64052 1 21220 64053 1 21329 64054 1 21917 64055 1 22022 64056 1 22120
64057 1 22592 64058 1 22696 64059 1 23652 64060 1 23662 64061 1 24724 64062 1 24936 64063 1
24974 64064 1 25074 64065 1 25935 64066 1 26082 64067 1 26257 64068 1 26757 64069 1 28023 64070
1 28186 64071 1 28450 64072 1 29038 64073 1 29227 64074 1 29730 64075 1 30865 64076 1 31038
64077 1 31049 64078 1 31048 64079 1 31056 64080 1 31062 64081 1 31069 64082 2 31117 64084 1
31296 64085 1 31361 64086 1 31680 64087 1 32244 64088 1 32265 64089 1 32321 64090 1 32626 64091
1 32773 64092 1 33261 64093 1 33401 64094 1 33401 64095 1 33879 64096 1 35088 64097 1 35222
64098 1 35585 64099 1 35641 64100 1 36051 64101 1 36104 64102 1 36790 64103 1 36920 64104 1
38627 64105 1 38911 64106 1 38971 64107 1 24693 64108 1 148206 64109 1 33304 64112 1 20006 64113
1 20917 64114 1 20840 64115 1 20352 64116 1 20805 64117 1 20864 64118 1 21191 64119 1 21242
64120 1 21917 64121 1 21845 64122 1 21913 64123 1 21986 64124 1 22618 64125 1 22707 64126 1
22852 64127 1 22868 64128 1 23138 64129 1 23336 64130 1 24274 64131 1 24281 64132 1 24425 64133
1 24493 64134 1 24792 64135 1 24910 64136 1 24840 64137 1 24974 64138 1 24928 64139 1 25074
64140 1 25140 64141 1 25540 64142 1 25628 64143 1 25682 64144 1 25942 64145 1 26228 64146 1
26391 64147 1 26395 64148 1 26454 64149 1 27513 64150 1 27578 64151 1 27969 64152 1 28379 64153
1 28363 64154 1 28450 64155 1 28702 64156 1 29038 64157 1 30631 64158 1 29237 64159 1 29359
64160 1 29482 64161 1 29809 64162 1 29958 64163 1 30011 64164 1 30237 64165 1 30239 64166 1
30410 64167 1 30427 64168 1 30452 64169 1 30538 64170 1 30528 64171 1 30924 64172 1 31409 64173
1 31680 64174 1 31867 64175 1 32091 64176 1 32244 64177 1 32574 64178 1 32773 64179 1 33618
64180 1 33775 64181 1 34681 64182 1 35137 64183 1 35206 64184 1 35222 64185 1 35519 64186 1
35576 64187 1 35531 64188 1 35585 64189 1 35582 64190 1 35565 64191 1 35641 64192 1 35722 64193
1 36104 64194 1 36664 64195 1 36978 64196 1 37273 64197 1 37494 64198 1 38524 64199 1 38627
64200 1 38742 64201 1 38875 64202 1 38911 64203 1 38923 64204 1 38971 64205 1 39698 64206 1
40860 64207 1 141386 64208 1 141380 64209 1 144341 64210 1 15261 64211 1 16408 64212 1 16441
64213 1 152137 64214 1 154832 64215 1 163539 64216 1 40771 64217 1 40846 64288 1 1506 64289 1
1488 64290 2 1491 64292 3 1499 64295 1 1512 64296 1 1514 64336 1 1649 64337 1 1649 64338 1 1659
64339 1 1659 64340 1 1659 64341 1 1659 64342 1 1662 64343 1 1662 64344 1 1662 64345 1 1662 64346
1 1664 64347 1 1664 64348 1 1664 64349 1 1664 64350 1 1658 64351 1 1658 64352 1 1658 64353 1
1658 64354 1 1663 64355 1 1663 64356 1 1663 64357 1 1663 64358 1 1657 64359 1 1657 64360 1 1657
64361 1 1657 64362 1 1700 64363 1 1700 64364 1 1700 64365 1 1700 64366 1 1702 64367 1 1702 64368
1 1702 64369 1 1702 64370 1 1668 64371 1 1668 64372 1 1668 64373 1 1668 64374 1 1667 64375 1
1667 64376 1 1667 64377 1 1667 64378 1 1670 64379 1 1670 64380 1 1670 64381 2 1670 64383 1 1671
64384 1 1671 64385 1 1671 64386 1 1677 64387 1 1677 64388 1 1676 64389 1 1676 64390 1 1678 64391
1 1678 64392 1 1672 64393 1 1672 64394 1 1688 64395 1 1688 64396 1 1681 64397 1 1681 64398 1
1705 64399 1 1705 64400 1 1705 64401 1 1705 64402 1 1711 64403 1 1711 64404 1 1711 64405 1 1711
64406 1 1715 64407 1 1715 64408 1 1715 64409 1 1715 64410 1 1713 64411 1 1713 64412 1 1713 64413
1 1713 64414 1 1722 64415 2 1722 64417 1 1723 64418 1 1723 64419 1 1723 64422 1 1729 64423 1
1729 64424 1 1729 64425 1 1729 64426 1 1726 64427 1 1726 64428 1 1726 64429 1 1726 64430 1 1746
64431 1 1746 64467 1 1709 64468 1 1709 64469 1 1709 64470 1 1709 64471 1 1735 64472 1 1735 64473
1 1734 64474 1 1734 64475 1 1736 64476 1 1736 64478 1 1739 64479 1 1739 64480 1 1733 64481 1
1733 64482 1 1737 64483 1 1737 64484 1 1744 64485 1 1744 64486 1 1744 64487 1 1744 64488 1 1609
64489 1 1609 64508 1 1740 64509 1 1740 64510 1 1740 64511 1 1740 65075 1 95 65076 1 95 65101 1
95 65102 1 95 65103 1 95 65152 1 1569 65165 1 1575 65166 2 1575 65168 1 1576 65169 1 1576 65170
2 1576 65172 2 1577 65174 1 1578 65175 1 1578 65176 2 1578 65178 1 1579 65179 1 1579 65180 2
1579 65182 1 1580 65183 1 1580 65184 2 1580 65186 1 1581 65187 1 1581 65188 2 1581 65190 1 1582
65191 1 1582 65192 2 1582 65194 2 1583 65196 2 1584 65198 2 1585 65200 2 1586 65202 1 1587 65203
1 1587 65204 2 1587 65206 1 1588 65207 1 1588 65208 2 1588 65210 1 1589 65211 1 1589 65212 2
1589 65214 1 1590 65215 1 1590 65216 2 1590 65218 1 1591 65219 1 1591 65220 2 1591 65222 1 1592
65223 1 1592 65224 2 1592 65226 1 1593 65227 1 1593 65228 2 1593 65230 1 1594 65231 1 1594 65232
1 1594 65233 1 1601 65234 1 1601 65235 1 1601 65236 2 1601 65238 1 1602 65239 1 1602 65240 2
1602 65242 1 1603 65243 1 1603 65244 2 1603 65246 1 1604 65247 1 1604 65248 2 1604 65250 1 1605
65251 1 1605 65252 2 1605 65254 1 1606 65255 1 1606 65256 2 1606 65258 1 1607 65259 1 1607 65260
2 1607 65262 2 1608 65264 2 1609 65266 1 1610 65267 1 1610 65268 1 1610 65296 10 48 65313 26 65
65343 1 95 65345 26 97 65382 1 12530 65383 1 12449 65384 1 12451 65385 1 12453 65386 1 12455
65387 1 12457 65388 1 12515 65389 1 12517 65390 1 12519 65391 1 12483 65392 1 12540 65393 1
12450 65394 1 12452 65395 1 12454 65396 1 12456 65397 2 12458 65399 1 12461 65400 1 12463 65401
1 12465 65402 1 12467 65403 1 12469 65404 1 12471 65405 1 12473 65406 1 12475 65407 1 12477
65408 1 12479 65409 1 12481 65410 1 12484 65411 1 12486 65412 1 12488 65413 6 12490 65419 1
12498 65420 1 12501 65421 1 12504 65422 1 12507 65423 5 12510 65428 1 12516 65429 1 12518 65430
6 12520 65436 1 12527 65437 1 12531 65438 2 12441 65440 1 4448 65441 2 4352 65443 1 4522 65444 1
4354 65445 2 4524 65447 3 4355 65450 6 4528 65456 1 4378 65457 3 4358 65460 1 4385 65461 10 4361
65474 6 4449 65482 6 4455 65490 6 4461 65498 3 4467 67457 2 720 67459 1 230 67460 1 665 67461 1
595 67463 1 675 67464 1 43878 67465 1 677 67466 1 676 67467 2 598 67469 1 7569 67470 1 600 67471
1 606 67472 1 681 67473 1 612 67474 1 610 67475 1 608 67476 1 667 67477 1 295 67478 1 668 67479
1 615 67480 1 644 67481 2 682 67483 1 620 67484 1 122628 67485 1 42894 67486 1 622 67487 1
122629 67488 1 654 67489 1 122630 67490 1 248 67491 2 630 67493 1 113 67494 1 634 67495 1 122632
67496 2 637 67498 1 640 67499 1 680 67500 1 678 67501 1 43879 67502 1 679 67503 1 648 67504 1
11377 67506 1 655 67507 2 673 67509 1 664 67510 3 448 67513 1 122634 67514 1 122654 119808 26 65
119834 26 97 119860 26 65 119886 7 97 119894 18 105 119912 26 65 119938 26 97 119964 1 65 119966
2 67 119970 1 71 119973 2 74 119977 4 78 119982 8 83 119990 4 97 119995 1 102 119997 7 104
120005 11 112 120016 26 65 120042 26 97 120068 2 65 120071 4 68 120077 8 74 120086 7 83 120094
26 97 120120 2 65 120123 4 68 120128 5 73 120134 1 79 120138 7 83 120146 26 97 120172 26 65
120198 26 97 120224 26 65 120250 26 97 120276 26 65 120302 26 97 120328 26 65 120354 26 97
120380 26 65 120406 26 97 120432 26 65 120458 26 97 120484 1 305 120485 1 567 120488 17 913
120505 1 920 120506 7 931 120514 25 945 120540 1 949 120541 1 952 120542 1 954 120543 1 966
120544 1 961 120545 1 960 120546 17 913 120563 1 920 120564 7 931 120572 25 945 120598 1 949
120599 1 952 120600 1 954 120601 1 966 120602 1 961 120603 1 960 120604 17 913 120621 1 920
120622 7 931 120630 25 945 120656 1 949 120657 1 952 120658 1 954 120659 1 966 120660 1 961
120661 1 960 120662 17 913 120679 1 920 120680 7 931 120688 25 945 120714 1 949 120715 1 952
120716 1 954 120717 1 966 120718 1 961 120719 1 960 120720 17 913 120737 1 920 120738 7 931
120746 25 945 120772 1 949 120773 1 952 120774 1 954 120775 1 966 120776 1 961 120777 1 960
120778 2 988 120782 10 48 120792 10 48 120802 10 48 120812 10 48 120822 10 48 126464 2 1575
126466 1 1580 126467 1 1583 126469 1 1608 126470 1 1586 126471 1 1581 126472 1 1591 126473 1
1610 126474 4 1603 126478 1 1587 126479 1 1593 126480 1 1601 126481 1 1589 126482 1 1602 126483
1 1585 126484 1 1588 126485 2 1578 126487 1 1582 126488 1 1584 126489 1 1590 126490 1 1592
126491 1 1594 126492 1 1646 126493 1 1722 126494 1 1697 126495 1 1647 126497 1 1576 126498 1
1580 126500 1 1607 126503 1 1581 126505 1 1610 126506 4 1603 126510 1 1587 126511 1 1593 126512
1 1601 126513 1 1589 126514 1 1602 126516 1 1588 126517 2 1578 126519 1 1582 126521 1 1590
126523 1 1594 126530 1 1580 126535 1 1581 126537 1 1610 126539 1 1604 126541 1 1606 126542 1
1587 126543 1 1593 126545 1 1589 126546 1 1602 126548 1 1588 126551 1 1582 126553 1 1590 126555
1 1594 126557 1 1722 126559 1 1647 126561 1 1576 126562 1 1580 126564 1 1607 126567 1 1581
126568 1 1591 126569 1 1610 126570 1 1603 126572 2 1605 126574 1 1587 126575 1 1593 126576 1
1601 126577 1 1589 126578 1 1602 126580 1 1588 126581 2 1578 126583 1 1582 126585 1 1590 126586
1 1592 126587 1 1594 126588 1 1646 126590 1 1697 126592 2 1575 126594 1 1580 126595 1 1583
126596 2 1607 126598 1 1586 126599 1 1581 126600 1 1591 126601 1 1610 126603 3 1604 126606 1
1587 126607 1 1593 126608 1 1601 126609 1 1589 126610 1 1602 126611 1 1585 126612 1 1588 126613
2 1578 126615 1 1582 126616 1 1584 126617 1 1590 126618 1 1592 126619 1 1594 126625 1 1576
126626 1 1580 126627 1 1583 126629 1 1608 126630 1 1586 126631 1 1581 126632 1 1591 126633 1
1610 126635 3 1604 126638 1 1587 126639 1 1593 126640 1 1601 126641 1 1589 126642 1 1602 126643
1 1585 126644 1 1588 126645 2 1578 126647 1 1582 126648 1 1584 126649 1 1590 126650 1 1592
126651 1 1594 130032 10 48 194560 1 20029 194561 1 20024 194562 1 20033 194563 1 131362 194564 1
20320 194565 1 20398 194566 1 20411 194567 1 20482 194568 1 20602 194569 1 20633 194570 1 20711
194571 1 20687 194572 1 13470 194573 1 132666 194574 1 20813 194575 1 20820 194576 1 20836
194577 1 20855 194578 1 132380 194579 1 13497 194580 1 20839 194581 1 20877 194582 1 132427
194583 1 20887 194584 1 20900 194585 1 20172 194586 1 20908 194587 1 20917 194588 1 168415
194589 1 20981 194590 1 20995 194591 1 13535 194592 1 21051 194593 1 21062 194594 1 21106 194595
1 21111 194596 1 13589 194597 1 21191 194598 1 21193 194599 1 21220 194600 1 21242 194601 2
21253 194603 1 21271 194604 1 21321 194605 1 21329 194606 1 21338 194607 1 21363 194608 1 21373
194609 1 21375 194610 1 21375 194611 1 21375 194612 1 133676 194613 1 28784 194614 1 21450
194615 1 21471 194616 1 133987 194617 1 21483 194618 1 21489 194619 1 21510 194620 1 21662
194621 1 21560 194622 1 21576 194623 1 21608 194624 1 21666 194625 1 21750 194626 1 21776 194627
1 21843 194628 1 21859 194629 1 21892 194630 1 21892 194631 1 21913 194632 1 21931 194633 1
21939 194634 1 21954 194635 1 22294 194636 1 22022 194637 1 22295 194638 1 22097 194639 1 22132
194640 1 20999 194641 1 22766 194642 1 22478 194643 1 22516 194644 1 22541 194645 1 22411 194646
1 22578 194647 1 22577 194648 1 22700 194649 1 136420 194650 1 22770 194651 1 22775 194652 1
22790 194653 1 22810 194654 1 22818 194655 1 22882 194656 1 136872 194657 1 136938 194658 1
23020 194659 1 23067 194660 1 23079 194661 1 23000 194662 1 23142 194663 1 14062 194664 1 14076
194665 1 23304 194666 1 23358 194667 1 23358 194668 1 137672 194669 1 23491 194670 1 23512
194671 1 23527 194672 1 23539 194673 1 138008 194674 1 23551 194675 1 23558 194676 1 24403
194677 1 23586 194678 1 14209 194679 1 23648 194680 1 23662 194681 1 23744 194682 1 23693 194683
1 138724 194684 1 23875 194685 1 138726 194686 1 23918 194687 1 23915 194688 1 23932 194689 2
24033 194691 1 14383 194692 1 24061 194693 1 24104 194694 1 24125 194695 1 24169 194696 1 14434
194697 1 139651 194698 1 14460 194699 1 24240 194700 1 24243 194701 1 24246 194702 1 24266
194703 1 172946 194704 1 24318 194705 1 140081 194706 1 140081 194707 1 33281 194708 1 24354
194709 1 24354 194710 1 14535 194711 1 144056 194712 1 156122 194713 1 24418 194714 1 24427
194715 1 14563 194716 1 24474 194717 1 24525 194718 1 24535 194719 1 24569 194720 1 24705 194721
1 14650 194722 1 14620 194723 1 24724 194724 1 141012 194725 1 24775 194726 1 24904 194727 1
24908 194728 1 24910 194729 1 24908 194730 1 24954 194731 1 24974 194732 1 25010 194733 1 24996
194734 1 25007 194735 1 25054 194736 1 25074 194737 1 25078 194738 1 25104 194739 1 25115 194740
1 25181 194741 1 25265 194742 1 25300 194743 1 25424 194744 1 142092 194745 1 25405 194746 1
25340 194747 1 25448 194748 1 25475 194749 1 25572 194750 1 142321 194751 1 25634 194752 1 25541
194753 1 25513 194754 1 14894 194755 1 25705 194756 1 25726 194757 1 25757 194758 1 25719 194759
1 14956 194760 1 25935 194761 1 25964 194762 1 143370 194763 1 26083 194764 1 26360 194765 1
26185 194766 1 15129 194767 1 26257 194768 1 15112 194769 1 15076 194770 1 20882 194771 1 20885
194772 1 26368 194773 1 26268 194774 1 32941 194775 1 17369 194776 1 26391 194777 1 26395 194778
1 26401 194779 1 26462 194780 1 26451 194781 1 144323 194782 1 15177 194783 1 26618 194784 1
26501 194785 1 26706 194786 1 26757 194787 1 144493 194788 1 26766 194789 1 26655 194790 1 26900
194791 1 15261 194792 1 26946 194793 1 27043 194794 1 27114 194795 1 27304 194796 1 145059
194797 1 27355 194798 1 15384 194799 1 27425 194800 1 145575 194801 1 27476 194802 1 15438
194803 1 27506 194804 1 27551 194805 2 27578 194807 1 146061 194808 1 138507 194809 1 146170
194810 1 27726 194811 1 146620 194812 1 27839 194813 1 27853 194814 1 27751 194815 1 27926
194816 1 27966 194817 1 28023 194818 1 27969 194819 1 28009 194820 1 28024 194821 1 28037 194822
1 146718 194823 1 27956 194824 1 28207 194825 1 28270 194826 1 15667 194827 1 28363 194828 1
28359 194829 1 147153 194830 1 28153 194831 1 28526 194832 1 147294 194833 1 147342 194834 1
28614 194835 1 28729 194836 1 28702 194837 1 28699 194838 1 15766 194839 1 28746 194840 1 28797
194841 1 28791 194842 1 28845 194843 1 132389 194844 1 28997 194845 1 148067 194846 1 29084
194847 1 148395 194848 1 29224 194849 1 29237 194850 1 29264 194851 1 149000 194852 1 29312
194853 1 29333 194854 1 149301 194855 1 149524 194856 1 29562 194857 1 29579 194858 1 16044
194859 1 29605 194860 1 16056 194861 1 16056 194862 1 29767 194863 1 29788 194864 1 29809 194865
1 29829 194866 1 29898 194867 1 16155 194868 1 29988 194869 1 150582 194870 1 30014 194871 1
150674 194872 1 30064 194873 1 139679 194874 1 30224 194875 1 151457 194876 1 151480 194877 1
151620 194878 1 16380 194879 1 16392 194880 1 30452 194881 1 151795 194882 1 151794 194883 1
151833 194884 1 151859 194885 2 30494 194887 1 30495 194888 1 30538 194889 1 16441 194890 1
30603 194891 1 16454 194892 1 16534 194893 1 152605 194894 1 30798 194895 1 30860 194896 1 30924
194897 1 16611 194898 1 153126 194899 1 31062 194900 1 153242 194901 1 153285 194902 1 31119
194903 1 31211 194904 1 16687 194905 1 31296 194906 1 31306 194907 1 31311 194908 1 153980
194909 1 154279 194910 1 154279 194911 1 31470 194912 1 16898 194913 1 154539 194914 1 31686
194915 1 31689 194916 1 16935 194917 1 154752 194918 1 31954 194919 1 17056 194920 1 31976
194921 1 31971 194922 1 32000 194923 1 155526 194924 1 32099 194925 1 17153 194926 1 32199
194927 1 32258 194928 1 32325 194929 1 17204 194930 1 156200 194931 1 156231 194932 1 17241
194933 1 156377 194934 1 32634 194935 1 156478 194936 1 32661 194937 1 32762 194938 1 32773
194939 1 156890 194940 1 156963 194941 1 32864 194942 1 157096 194943 1 32880 194944 1 144223
194945 1 17365 194946 1 32946 194947 1 33027 194948 1 17419 194949 1 33086 194950 1 23221 194951
1 157607 194952 1 157621 194953 1 144275 194954 1 144284 194955 1 33281 194956 1 33284 194957 1
36766 194958 1 17515 194959 1 33425 194960 1 33419 194961 1 33437 194962 1 21171 194963 1 33457
194964 1 33459 194965 1 33469 194966 1 33510 194967 1 158524 194968 1 33509 194969 1 33565
194970 1 33635 194971 1 33709 194972 1 33571 194973 1 33725 194974 1 33767 194975 1 33879 194976
1 33619 194977 1 33738 194978 1 33740 194979 1 33756 194980 1 158774 194981 1 159083 194982 1
158933 194983 1 17707 194984 1 34033 194985 1 34035 194986 1 34070 194987 1 160714 194988 1
34148 194989 1 159532 194990 1 17757 194991 1 17761 194992 1 159665 194993 1 159954 194994 1
17771 194995 1 34384 194996 1 34396 194997 1 34407 194998 1 34409 194999 1 34473 195000 1 34440
195001 1 34574 195002 1 34530 195003 1 34681 195004 1 34600 195005 1 34667 195006 1 34694 195007
1 17879 195008 1 34785 195009 1 34817 195010 1 17913 195011 1 34912 195012 1 34915 195013 1
161383 195014 1 35031 195015 1 35038 195016 1 17973 195017 1 35066 195018 1 13499 195019 1
161966 195020 1 162150 195021 1 18110 195022 1 18119 195023 1 35488 195024 1 35565 195025 1
35722 195026 1 35925 195027 1 162984 195028 1 36011 195029 1 36033 195030 1 36123 195031 1 36215
195032 1 163631 195033 1 133124 195034 1 36299 195035 1 36284 195036 1 36336 195037 1 133342
195038 1 36564 195039 1 36664 195040 1 165330 195041 1 165357 195042 1 37012 195043 1 37105
195044 1 37137 195045 1 165678 195046 1 37147 195047 1 37432 195048 2 37591 195050 1 37500
195051 1 37881 195052 1 37909 195053 1 166906 195054 1 38283 195055 1 18837 195056 1 38327
195057 1 167287 195058 1 18918 195059 1 38595 195060 1 23986 195061 1 38691 195062 1 168261
195063 1 168474 195064 1 19054 195065 1 19062 195066 1 38880 195067 1 168970 195068 1 19122
195069 1 169110 195070 1 38923 195071 1 38923 195072 1 38953 195073 1 169398 195074 1 39138
195075 1 19251 195076 1 39209 195077 1 39335 195078 1 39362 195079 1 39422 195080 1 19406 195081
1 170800 195082 1 39698 195083 1 40000 195084 1 40189 195085 1 19662 195086 1 19693 195087 1
40295 195088 1 172238 195089 1 19704 195090 1 172293 195091 1 172558 195092 1 172689 195093 1
40635 195094 1 19798 195095 1 40697 195096 1 40702 195097 1 40709 195098 1 40719 195099 1 40726
195100 1 40763 195101 1 173568"

/-- Entries `character count part …`: a character that stands for several. -/
def oneToManyTable : String :=
"192 2 65 768 193 2 65 769 194 2 65 770 195 2 65 771 196 2 65 776 197 2 65 778 199 2 67 807 200 2
69 768 201 2 69 769 202 2 69 770 203 2 69 776 204 2 73 768 205 2 73 769 206 2 73 770 207 2 73
776 209 2 78 771 210 2 79 768 211 2 79 769 212 2 79 770 213 2 79 771 214 2 79 776 217 2 85 768
218 2 85 769 219 2 85 770 220 2 85 776 221 2 89 769 224 2 97 768 225 2 97 769 226 2 97 770 227 2
97 771 228 2 97 776 229 2 97 778 231 2 99 807 232 2 101 768 233 2 101 769 234 2 101 770 235 2
101 776 236 2 105 768 237 2 105 769 238 2 105 770 239 2 105 776 241 2 110 771 242 2 111 768 243
2 111 769 244 2 111 770 245 2 111 771 246 2 111 776 249 2 117 768 250 2 117 769 251 2 117 770
252 2 117 776 253 2 121 769 255 2 121 776 256 2 65 772 257 2 97 772 258 2 65 774 259 2 97 774
260 2 65 808 261 2 97 808 262 2 67 769 263 2 99 769 264 2 67 770 265 2 99 770 266 2 67 775 267 2
99 775 268 2 67 780 269 2 99 780 270 2 68 780 271 2 100 780 274 2 69 772 275 2 101 772 276 2 69
774 277 2 101 774 278 2 69 775 279 2 101 775 280 2 69 808 281 2 101 808 282 2 69 780 283 2 101
780 284 2 71 770 285 2 103 770 286 2 71 774 287 2 103 774 288 2 71 775 289 2 103 775 290 2 71
807 291 2 103 807 292 2 72 770 293 2 104 770 296 2 73 771 297 2 105 771 298 2 73 772 299 2 105
772 300 2 73 774 301 2 105 774 302 2 73 808 303 2 105 808 304 2 73 775 306 2 73 74 307 2 105 106
308 2 74 770 309 2 106 770 310 2 75 807 311 2 107 807 313 2 76 769 314 2 108 769 315 2 76 807
316 2 108 807 317 2 76 780 318 2 108 780 319 2 76 183 320 2 108 183 323 2 78 769 324 2 110 769
325 2 78 807 326 2 110 807 327 2 78 780 328 2 110 780 329 2 700 110 332 2 79 772 333 2 111 772
334 2 79 774 335 2 111 774 336 2 79 779 337 2 111 779 340 2 82 769 341 2 114 769 342 2 82 807
343 2 114 807 344 2 82 780 345 2 114 780 346 2 83 769 347 2 115 769 348 2 83 770 349 2 115 770
350 2 83 807 351 2 115 807 352 2 83 780 353 2 115 780 354 2 84 807 355 2 116 807 356 2 84 780
357 2 116 780 360 2 85 771 361 2 117 771 362 2 85 772 363 2 117 772 364 2 85 774 365 2 117 774
366 2 85 778 367 2 117 778 368 2 85 779 369 2 117 779 370 2 85 808 371 2 117 808 372 2 87 770
373 2 119 770 374 2 89 770 375 2 121 770 376 2 89 776 377 2 90 769 378 2 122 769 379 2 90 775
380 2 122 775 381 2 90 780 382 2 122 780 416 2 79 795 417 2 111 795 431 2 85 795 432 2 117 795
452 3 68 90 780 453 3 68 122 780 454 3 100 122 780 455 2 76 74 456 2 76 106 457 2 108 106 458 2
78 74 459 2 78 106 460 2 110 106 461 2 65 780 462 2 97 780 463 2 73 780 464 2 105 780 465 2 79
780 466 2 111 780 467 2 85 780 468 2 117 780 469 3 85 776 772 470 3 117 776 772 471 3 85 776 769
472 3 117 776 769 473 3 85 776 780 474 3 117 776 780 475 3 85 776 768 476 3 117 776 768 478 3 65
776 772 479 3 97 776 772 480 3 65 775 772 481 3 97 775 772 482 2 198 772 483 2 230 772 486 2 71
780 487 2 103 780 488 2 75 780 489 2 107 780 490 2 79 808 491 2 111 808 492 3 79 808 772 493 3
111 808 772 494 2 439 780 495 2 658 780 496 2 106 780 497 2 68 90 498 2 68 122 499 2 100 122 500
2 71 769 501 2 103 769 504 2 78 768 505 2 110 768 506 3 65 778 769 507 3 97 778 769 508 2 198
769 509 2 230 769 510 2 216 769 511 2 248 769 512 2 65 783 513 2 97 783 514 2 65 785 515 2 97
785 516 2 69 783 517 2 101 783 518 2 69 785 519 2 101 785 520 2 73 783 521 2 105 783 522 2 73
785 523 2 105 785 524 2 79 783 525 2 111 783 526 2 79 785 527 2 111 785 528 2 82 783 529 2 114
783 530 2 82 785 531 2 114 785 532 2 85 783 533 2 117 783 534 2 85 785 535 2 117 785 536 2 83
806 537 2 115 806 538 2 84 806 539 2 116 806 542 2 72 780 543 2 104 780 550 2 65 775 551 2 97
775 552 2 69 807 553 2 101 807 554 3 79 776 772 555 3 111 776 772 556 3 79 771 772 557 3 111 771
772 558 2 79 775 559 2 111 775 560 3 79 775 772 561 3 111 775 772 562 2 89 772 563 2 121 772 836
2 776 769 902 2 913 769 904 2 917 769 905 2 919 769 906 2 921 769 908 2 927 769 910 2 933 769
911 2 937 769 912 3 953 776 769 938 2 921 776 939 2 933 776 940 2 945 769 941 2 949 769 942 2
951 769 943 2 953 769 944 3 965 776 769 970 2 953 776 971 2 965 776 972 2 959 769 973 2 965 769
974 2 969 769 979 2 933 769 980 2 933 776 1024 2 1045 768 1025 2 1045 776 1027 2 1043 769 1031 2
1030 776 1036 2 1050 769 1037 2 1048 768 1038 2 1059 774 1049 2 1048 774 1081 2 1080 774 1104 2
1077 768 1105 2 1077 776 1107 2 1075 769 1111 2 1110 776 1116 2 1082 769 1117 2 1080 768 1118 2
1091 774 1142 2 1140 783 1143 2 1141 783 1217 2 1046 774 1218 2 1078 774 1232 2 1040 774 1233 2
1072 774 1234 2 1040 776 1235 2 1072 776 1238 2 1045 774 1239 2 1077 774 1242 2 1240 776 1243 2
1241 776 1244 2 1046 776 1245 2 1078 776 1246 2 1047 776 1247 2 1079 776 1250 2 1048 772 1251 2
1080 772 1252 2 1048 776 1253 2 1080 776 1254 2 1054 776 1255 2 1086 776 1258 2 1256 776 1259 2
1257 776 1260 2 1069 776 1261 2 1101 776 1262 2 1059 772 1263 2 1091 772 1264 2 1059 776 1265 2
1091 776 1266 2 1059 779 1267 2 1091 779 1268 2 1063 776 1269 2 1095 776 1272 2 1067 776 1273 2
1099 776 1415 2 1381 1410 1570 2 1575 1619 1571 2 1575 1620 1572 2 1608 1620 1573 2 1575 1621
1574 2 1610 1620 1653 2 1575 1652 1654 2 1608 1652 1655 2 1735 1652 1656 2 1610 1652 1728 2 1749
1620 1730 2 1729 1620 1747 2 1746 1620 2345 2 2344 2364 2353 2 2352 2364 2356 2 2355 2364 2392 2
2325 2364 2393 2 2326 2364 2394 2 2327 2364 2395 2 2332 2364 2396 2 2337 2364 2397 2 2338 2364
2398 2 2347 2364 2399 2 2351 2364 2507 2 2503 2494 2508 2 2503 2519 2524 2 2465 2492 2525 2 2466
2492 2527 2 2479 2492 2611 2 2610 2620 2614 2 2616 2620 2649 2 2582 2620 2650 2 2583 2620 2651 2
2588 2620 2654 2 2603 2620 2888 2 2887 2902 2891 2 2887 2878 2892 2 2887 2903 2908 2 2849 2876
2909 2 2850 2876 2964 2 2962 3031 3018 2 3014 3006 3019 2 3015 3006 3020 2 3014 3031 3144 2 3142
3158 3264 2 3263 3285 3271 2 3270 3285 3272 2 3270 3286 3274 2 3270 3266 3275 3 3270 3266 3285
3402 2 3398 3390 3403 2 3399 3390 3404 2 3398 3415 3546 2 3545 3530 3548 2 3545 3535 3549 3 3545
3535 3530 3550 2 3545 3551 3635 2 3661 3634 3763 2 3789 3762 3804 2 3755 3737 3805 2 3755 3745
3907 2 3906 4023 3917 2 3916 4023 3922 2 3921 4023 3927 2 3926 4023 3932 2 3931 4023 3945 2 3904
4021 3955 2 3953 3954 3957 2 3953 3956 3958 2 4018 3968 3959 3 4018 3953 3968 3960 2 4019 3968
3961 3 4019 3953 3968 3969 2 3953 3968 3987 2 3986 4023 3997 2 3996 4023 4002 2 4001 4023 4007 2
4006 4023 4012 2 4011 4023 4025 2 3984 4021 4134 2 4133 4142 6918 2 6917 6965 6920 2 6919 6965
6922 2 6921 6965 6924 2 6923 6965 6926 2 6925 6965 6930 2 6929 6965 6971 2 6970 6965 6973 2 6972
6965 6976 2 6974 6965 6977 2 6975 6965 6979 2 6978 6965 7680 2 65 805 7681 2 97 805 7682 2 66
775 7683 2 98 775 7684 2 66 803 7685 2 98 803 7686 2 66 817 7687 2 98 817 7688 3 67 807 769 7689
3 99 807 769 7690 2 68 775 7691 2 100 775 7692 2 68 803 7693 2 100 803 7694 2 68 817 7695 2 100
817 7696 2 68 807 7697 2 100 807 7698 2 68 813 7699 2 100 813 7700 3 69 772 768 7701 3 101 772
768 7702 3 69 772 769 7703 3 101 772 769 7704 2 69 813 7705 2 101 813 7706 2 69 816 7707 2 101
816 7708 3 69 807 774 7709 3 101 807 774 7710 2 70 775 7711 2 102 775 7712 2 71 772 7713 2 103
772 7714 2 72 775 7715 2 104 775 7716 2 72 803 7717 2 104 803 7718 2 72 776 7719 2 104 776 7720
2 72 807 7721 2 104 807 7722 2 72 814 7723 2 104 814 7724 2 73 816 7725 2 105 816 7726 3 73 776
769 7727 3 105 776 769 7728 2 75 769 7729 2 107 769 7730 2 75 803 7731 2 107 803 7732 2 75 817
7733 2 107 817 7734 2 76 803 7735 2 108 803 7736 3 76 803 772 7737 3 108 803 772 7738 2 76 817
7739 2 108 817 7740 2 76 813 7741 2 108 813 7742 2 77 769 7743 2 109 769 7744 2 77 775 7745 2
109 775 7746 2 77 803 7747 2 109 803 7748 2 78 775 7749 2 110 775 7750 2 78 803 7751 2 110 803
7752 2 78 817 7753 2 110 817 7754 2 78 813 7755 2 110 813 7756 3 79 771 769 7757 3 111 771 769
7758 3 79 771 776 7759 3 111 771 776 7760 3 79 772 768 7761 3 111 772 768 7762 3 79 772 769 7763
3 111 772 769 7764 2 80 769 7765 2 112 769 7766 2 80 775 7767 2 112 775 7768 2 82 775 7769 2 114
775 7770 2 82 803 7771 2 114 803 7772 3 82 803 772 7773 3 114 803 772 7774 2 82 817 7775 2 114
817 7776 2 83 775 7777 2 115 775 7778 2 83 803 7779 2 115 803 7780 3 83 769 775 7781 3 115 769
775 7782 3 83 780 775 7783 3 115 780 775 7784 3 83 803 775 7785 3 115 803 775 7786 2 84 775 7787
2 116 775 7788 2 84 803 7789 2 116 803 7790 2 84 817 7791 2 116 817 7792 2 84 813 7793 2 116 813
7794 2 85 804 7795 2 117 804 7796 2 85 816 7797 2 117 816 7798 2 85 813 7799 2 117 813 7800 3 85
771 769 7801 3 117 771 769 7802 3 85 772 776 7803 3 117 772 776 7804 2 86 771 7805 2 118 771
7806 2 86 803 7807 2 118 803 7808 2 87 768 7809 2 119 768 7810 2 87 769 7811 2 119 769 7812 2 87
776 7813 2 119 776 7814 2 87 775 7815 2 119 775 7816 2 87 803 7817 2 119 803 7818 2 88 775 7819
2 120 775 7820 2 88 776 7821 2 120 776 7822 2 89 775 7823 2 121 775 7824 2 90 770 7825 2 122 770
7826 2 90 803 7827 2 122 803 7828 2 90 817 7829 2 122 817 7830 2 104 817 7831 2 116 776 7832 2
119 778 7833 2 121 778 7834 2 97 702 7835 2 115 775 7840 2 65 803 7841 2 97 803 7842 2 65 777
7843 2 97 777 7844 3 65 770 769 7845 3 97 770 769 7846 3 65 770 768 7847 3 97 770 768 7848 3 65
770 777 7849 3 97 770 777 7850 3 65 770 771 7851 3 97 770 771 7852 3 65 803 770 7853 3 97 803
770 7854 3 65 774 769 7855 3 97 774 769 7856 3 65 774 768 7857 3 97 774 768 7858 3 65 774 777
7859 3 97 774 777 7860 3 65 774 771 7861 3 97 774 771 7862 3 65 803 774 7863 3 97 803 774 7864 2
69 803 7865 2 101 803 7866 2 69 777 7867 2 101 777 7868 2 69 771 7869 2 101 771 7870 3 69 770
769 7871 3 101 770 769 7872 3 69 770 768 7873 3 101 770 768 7874 3 69 770 777 7875 3 101 770 777
7876 3 69 770 771 7877 3 101 770 771 7878 3 69 803 770 7879 3 101 803 770 7880 2 73 777 7881 2
105 777 7882 2 73 803 7883 2 105 803 7884 2 79 803 7885 2 111 803 7886 2 79 777 7887 2 111 777
7888 3 79 770 769 7889 3 111 770 769 7890 3 79 770 768 7891 3 111 770 768 7892 3 79 770 777 7893
3 111 770 777 7894 3 79 770 771 7895 3 111 770 771 7896 3 79 803 770 7897 3 111 803 770 7898 3
79 795 769 7899 3 111 795 769 7900 3 79 795 768 7901 3 111 795 768 7902 3 79 795 777 7903 3 111
795 777 7904 3 79 795 771 7905 3 111 795 771 7906 3 79 795 803 7907 3 111 795 803 7908 2 85 803
7909 2 117 803 7910 2 85 777 7911 2 117 777 7912 3 85 795 769 7913 3 117 795 769 7914 3 85 795
768 7915 3 117 795 768 7916 3 85 795 777 7917 3 117 795 777 7918 3 85 795 771 7919 3 117 795 771
7920 3 85 795 803 7921 3 117 795 803 7922 2 89 768 7923 2 121 768 7924 2 89 803 7925 2 121 803
7926 2 89 777 7927 2 121 777 7928 2 89 771 7929 2 121 771 7936 2 945 787 7937 2 945 788 7938 3
945 787 768 7939 3 945 788 768 7940 3 945 787 769 7941 3 945 788 769 7942 3 945 787 834 7943 3
945 788 834 7944 2 913 787 7945 2 913 788 7946 3 913 787 768 7947 3 913 788 768 7948 3 913 787
769 7949 3 913 788 769 7950 3 913 787 834 7951 3 913 788 834 7952 2 949 787 7953 2 949 788 7954
3 949 787 768 7955 3 949 788 768 7956 3 949 787 769 7957 3 949 788 769 7960 2 917 787 7961 2 917
788 7962 3 917 787 768 7963 3 917 788 768 7964 3 917 787 769 7965 3 917 788 769 7968 2 951 787
7969 2 951 788 7970 3 951 787 768 7971 3 951 788 768 7972 3 951 787 769 7973 3 951 788 769 7974
3 951 787 834 7975 3 951 788 834 7976 2 919 787 7977 2 919 788 7978 3 919 787 768 7979 3 919 788
768 7980 3 919 787 769 7981 3 919 788 769 7982 3 919 787 834 7983 3 919 788 834 7984 2 953 787
7985 2 953 788 7986 3 953 787 768 7987 3 953 788 768 7988 3 953 787 769 7989 3 953 788 769 7990
3 953 787 834 7991 3 953 788 834 7992 2 921 787 7993 2 921 788 7994 3 921 787 768 7995 3 921 788
768 7996 3 921 787 769 7997 3 921 788 769 7998 3 921 787 834 7999 3 921 788 834 8000 2 959 787
8001 2 959 788 8002 3 959 787 768 8003 3 959 788 768 8004 3 959 787 769 8005 3 959 788 769 8008
2 927 787 8009 2 927 788 8010 3 927 787 768 8011 3 927 788 768 8012 3 927 787 769 8013 3 927 788
769 8016 2 965 787 8017 2 965 788 8018 3 965 787 768 8019 3 965 788 768 8020 3 965 787 769 8021
3 965 788 769 8022 3 965 787 834 8023 3 965 788 834 8025 2 933 788 8027 3 933 788 768 8029 3 933
788 769 8031 3 933 788 834 8032 2 969 787 8033 2 969 788 8034 3 969 787 768 8035 3 969 788 768
8036 3 969 787 769 8037 3 969 788 769 8038 3 969 787 834 8039 3 969 788 834 8040 2 937 787 8041
2 937 788 8042 3 937 787 768 8043 3 937 788 768 8044 3 937 787 769 8045 3 937 788 769 8046 3 937
787 834 8047 3 937 788 834 8048 2 945 768 8049 2 945 769 8050 2 949 768 8051 2 949 769 8052 2
951 768 8053 2 951 769 8054 2 953 768 8055 2 953 769 8056 2 959 768 8057 2 959 769 8058 2 965
768 8059 2 965 769 8060 2 969 768 8061 2 969 769 8064 3 945 787 837 8065 3 945 788 837 8066 4
945 787 768 837 8067 4 945 788 768 837 8068 4 945 787 769 837 8069 4 945 788 769 837 8070 4 945
787 834 837 8071 4 945 788 834 837 8072 3 913 787 837 8073 3 913 788 837 8074 4 913 787 768 837
8075 4 913 788 768 837 8076 4 913 787 769 837 8077 4 913 788 769 837 8078 4 913 787 834 837 8079
4 913 788 834 837 8080 3 951 787 837 8081 3 951 788 837 8082 4 951 787 768 837 8083 4 951 788
768 837 8084 4 951 787 769 837 8085 4 951 788 769 837 8086 4 951 787 834 837 8087 4 951 788 834
837 8088 3 919 787 837 8089 3 919 788 837 8090 4 919 787 768 837 8091 4 919 788 768 837 8092 4
919 787 769 837 8093 4 919 788 769 837 8094 4 919 787 834 837 8095 4 919 788 834 837 8096 3 969
787 837 8097 3 969 788 837 8098 4 969 787 768 837 8099 4 969 788 768 837 8100 4 969 787 769 837
8101 4 969 788 769 837 8102 4 969 787 834 837 8103 4 969 788 834 837 8104 3 937 787 837 8105 3
937 788 837 8106 4 937 787 768 837 8107 4 937 788 768 837 8108 4 937 787 769 837 8109 4 937 788
769 837 8110 4 937 787 834 837 8111 4 937 788 834 837 8112 2 945 774 8113 2 945 772 8114 3 945
768 837 8115 2 945 837 8116 3 945 769 837 8118 2 945 834 8119 3 945 834 837 8120 2 913 774 8121
2 913 772 8122 2 913 768 8123 2 913 769 8124 2 913 837 8130 3 951 768 837 8131 2 951 837 8132 3
951 769 837 8134 2 951 834 8135 3 951 834 837 8136 2 917 768 8137 2 917 769 8138 2 919 768 8139
2 919 769 8140 2 919 837 8144 2 953 774 8145 2 953 772 8146 3 953 776 768 8147 3 953 776 769
8150 2 953 834 8151 3 953 776 834 8152 2 921 774 8153 2 921 772 8154 2 921 768 8155 2 921 769
8160 2 965 774 8161 2 965 772 8162 3 965 776 768 8163 3 965 776 769 8164 2 961 787 8165 2 961
788 8166 2 965 834 8167 3 965 776 834 8168 2 933 774 8169 2 933 772 8170 2 933 768 8171 2 933
769 8172 2 929 788 8178 3 969 768 837 8179 2 969 837 8180 3 969 769 837 8182 2 969 834 8183 3
969 834 837 8184 2 927 768 8185 2 927 769 8186 2 937 768 8187 2 937 769 8188 2 937 837 8491 2 65
778 8545 2 73 73 8546 3 73 73 73 8547 2 73 86 8549 2 86 73 8550 3 86 73 73 8551 4 86 73 73 73
8552 2 73 88 8554 2 88 73 8555 3 88 73 73 8561 2 105 105 8562 3 105 105 105 8563 2 105 118 8565
2 118 105 8566 3 118 105 105 8567 4 118 105 105 105 8568 2 105 120 8570 2 120 105 8571 3 120 105
105 12364 2 12363 12441 12366 2 12365 12441 12368 2 12367 12441 12370 2 12369 12441 12372 2
12371 12441 12374 2 12373 12441 12376 2 12375 12441 12378 2 12377 12441 12380 2 12379 12441
12382 2 12381 12441 12384 2 12383 12441 12386 2 12385 12441 12389 2 12388 12441 12391 2 12390
12441 12393 2 12392 12441 12400 2 12399 12441 12401 2 12399 12442 12403 2 12402 12441 12404 2
12402 12442 12406 2 12405 12441 12407 2 12405 12442 12409 2 12408 12441 12410 2 12408 12442
12412 2 12411 12441 12413 2 12411 12442 12436 2 12358 12441 12446 2 12445 12441 12447 2 12424
12426 12460 2 12459 12441 12462 2 12461 12441 12464 2 12463 12441 12466 2 12465 12441 12468 2
12467 12441 12470 2 12469 12441 12472 2 12471 12441 12474 2 12473 12441 12476 2 12475 12441
12478 2 12477 12441 12480 2 12479 12441 12482 2 12481 12441 12485 2 12484 12441 12487 2 12486
12441 12489 2 12488 12441 12496 2 12495 12441 12497 2 12495 12442 12499 2 12498 12441 12500 2
12498 12442 12502 2 12501 12441 12503 2 12501 12442 12505 2 12504 12441 12506 2 12504 12442
12508 2 12507 12441 12509 2 12507 12442 12532 2 12454 12441 12535 2 12527 12441 12536 2 12528
12441 12537 2 12529 12441 12538 2 12530 12441 12542 2 12541 12441 12543 2 12467 12488 64256 2
102 102 64257 2 102 105 64258 2 102 108 64259 3 102 102 105 64260 3 102 102 108 64261 2 115 116
64262 2 115 116 64275 2 1396 1398 64276 2 1396 1381 64277 2 1396 1387 64278 2 1406 1398 64279 2
1396 1389 64285 2 1497 1460 64287 2 1522 1463 64298 2 1513 1473 64299 2 1513 1474 64300 3 1513
1468 1473 64301 3 1513 1468 1474 64302 2 1488 1463 64303 2 1488 1464 64304 2 1488 1468 64305 2
1489 1468 64306 2 1490 1468 64307 2 1491 1468 64308 2 1492 1468 64309 2 1493 1468 64310 2 1494
1468 64312 2 1496 1468 64313 2 1497 1468 64314 2 1498 1468 64315 2 1499 1468 64316 2 1500 1468
64318 2 1502 1468 64320 2 1504 1468 64321 2 1505 1468 64323 2 1507 1468 64324 2 1508 1468 64326
2 1510 1468 64327 2 1511 1468 64328 2 1512 1468 64329 2 1513 1468 64330 2 1514 1468 64331 2 1493
1465 64332 2 1489 1471 64333 2 1499 1471 64334 2 1508 1471 64335 2 1488 1500 64420 2 1749 1620
64421 2 1749 1620 64432 2 1746 1620 64433 2 1746 1620 64477 2 1735 1652 64490 3 1610 1620 1575
64491 3 1610 1620 1575 64492 3 1610 1620 1749 64493 3 1610 1620 1749 64494 3 1610 1620 1608
64495 3 1610 1620 1608 64496 3 1610 1620 1735 64497 3 1610 1620 1735 64498 3 1610 1620 1734
64499 3 1610 1620 1734 64500 3 1610 1620 1736 64501 3 1610 1620 1736 64502 3 1610 1620 1744
64503 3 1610 1620 1744 64504 3 1610 1620 1744 64505 3 1610 1620 1609 64506 3 1610 1620 1609
64507 3 1610 1620 1609 64512 3 1610 1620 1580 64513 3 1610 1620 1581 64514 3 1610 1620 1605
64515 3 1610 1620 1609 64516 3 1610 1620 1610 64517 2 1576 1580 64518 2 1576 1581 64519 2 1576
1582 64520 2 1576 1605 64521 2 1576 1609 64522 2 1576 1610 64523 2 1578 1580 64524 2 1578 1581
64525 2 1578 1582 64526 2 1578 1605 64527 2 1578 1609 64528 2 1578 1610 64529 2 1579 1580 64530
2 1579 1605 64531 2 1579 1609 64532 2 1579 1610 64533 2 1580 1581 64534 2 1580 1605 64535 2 1581
1580 64536 2 1581 1605 64537 2 1582 1580 64538 2 1582 1581 64539 2 1582 1605 64540 2 1587 1580
64541 2 1587 1581 64542 2 1587 1582 64543 2 1587 1605 64544 2 1589 1581 64545 2 1589 1605 64546
2 1590 1580 64547 2 1590 1581 64548 2 1590 1582 64549 2 1590 1605 64550 2 1591 1581 64551 2 1591
1605 64552 2 1592 1605 64553 2 1593 1580 64554 2 1593 1605 64555 2 1594 1580 64556 2 1594 1605
64557 2 1601 1580 64558 2 1601 1581 64559 2 1601 1582 64560 2 1601 1605 64561 2 1601 1609 64562
2 1601 1610 64563 2 1602 1581 64564 2 1602 1605 64565 2 1602 1609 64566 2 1602 1610 64567 2 1603
1575 64568 2 1603 1580 64569 2 1603 1581 64570 2 1603 1582 64571 2 1603 1604 64572 2 1603 1605
64573 2 1603 1609 64574 2 1603 1610 64575 2 1604 1580 64576 2 1604 1581 64577 2 1604 1582 64578
2 1604 1605 64579 2 1604 1609 64580 2 1604 1610 64581 2 1605 1580 64582 2 1605 1581 64583 2 1605
1582 64584 2 1605 1605 64585 2 1605 1609 64586 2 1605 1610 64587 2 1606 1580 64588 2 1606 1581
64589 2 1606 1582 64590 2 1606 1605 64591 2 1606 1609 64592 2 1606 1610 64593 2 1607 1580 64594
2 1607 1605 64595 2 1607 1609 64596 2 1607 1610 64597 2 1610 1580 64598 2 1610 1581 64599 2 1610
1582 64600 2 1610 1605 64601 2 1610 1609 64602 2 1610 1610 64603 2 1584 1648 64604 2 1585 1648
64605 2 1609 1648 64612 3 1610 1620 1585 64613 3 1610 1620 1586 64614 3 1610 1620 1605 64615 3
1610 1620 1606 64616 3 1610 1620 1609 64617 3 1610 1620 1610 64618 2 1576 1585 64619 2 1576 1586
64620 2 1576 1605 64621 2 1576 1606 64622 2 1576 1609 64623 2 1576 1610 64624 2 1578 1585 64625
2 1578 1586 64626 2 1578 1605 64627 2 1578 1606 64628 2 1578 1609 64629 2 1578 1610 64630 2 1579
1585 64631 2 1579 1586 64632 2 1579 1605 64633 2 1579 1606 64634 2 1579 1609 64635 2 1579 1610
64636 2 1601 1609 64637 2 1601 1610 64638 2 1602 1609 64639 2 1602 1610 64640 2 1603 1575 64641
2 1603 1604 64642 2 1603 1605 64643 2 1603 1609 64644 2 1603 1610 64645 2 1604 1605 64646 2 1604
1609 64647 2 1604 1610 64648 2 1605 1575 64649 2 1605 1605 64650 2 1606 1585 64651 2 1606 1586
64652 2 1606 1605 64653 2 1606 1606 64654 2 1606 1609 64655 2 1606 1610 64656 2 1609 1648 64657
2 1610 1585 64658 2 1610 1586 64659 2 1610 1605 64660 2 1610 1606 64661 2 1610 1609 64662 2 1610
1610 64663 3 1610 1620 1580 64664 3 1610 1620 1581 64665 3 1610 1620 1582 64666 3 1610 1620 1605
64667 3 1610 1620 1607 64668 2 1576 1580 64669 2 1576 1581 64670 2 1576 1582 64671 2 1576 1605
64672 2 1576 1607 64673 2 1578 1580 64674 2 1578 1581 64675 2 1578 1582 64676 2 1578 1605 64677
2 1578 1607 64678 2 1579 1605 64679 2 1580 1581 64680 2 1580 1605 64681 2 1581 1580 64682 2 1581
1605 64683 2 1582 1580 64684 2 1582 1605 64685 2 1587 1580 64686 2 1587 1581 64687 2 1587 1582
64688 2 1587 1605 64689 2 1589 1581 64690 2 1589 1582 64691 2 1589 1605 64692 2 1590 1580 64693
2 1590 1581 64694 2 1590 1582 64695 2 1590 1605 64696 2 1591 1581 64697 2 1592 1605 64698 2 1593
1580 64699 2 1593 1605 64700 2 1594 1580 64701 2 1594 1605 64702 2 1601 1580 64703 2 1601 1581
64704 2 1601 1582 64705 2 1601 1605 64706 2 1602 1581 64707 2 1602 1605 64708 2 1603 1580 64709
2 1603 1581 64710 2 1603 1582 64711 2 1603 1604 64712 2 1603 1605 64713 2 1604 1580 64714 2 1604
1581 64715 2 1604 1582 64716 2 1604 1605 64717 2 1604 1607 64718 2 1605 1580 64719 2 1605 1581
64720 2 1605 1582 64721 2 1605 1605 64722 2 1606 1580 64723 2 1606 1581 64724 2 1606 1582 64725
2 1606 1605 64726 2 1606 1607 64727 2 1607 1580 64728 2 1607 1605 64729 2 1607 1648 64730 2 1610
1580 64731 2 1610 1581 64732 2 1610 1582 64733 2 1610 1605 64734 2 1610 1607 64735 3 1610 1620
1605 64736 3 1610 1620 1607 64737 2 1576 1605 64738 2 1576 1607 64739 2 1578 1605 64740 2 1578
1607 64741 2 1579 1605 64742 2 1579 1607 64743 2 1587 1605 64744 2 1587 1607 64745 2 1588 1605
64746 2 1588 1607 64747 2 1603 1604 64748 2 1603 1605 64749 2 1604 1605 64750 2 1606 1605 64751
2 1606 1607 64752 2 1610 1605 64753 2 1610 1607 64754 3 1600 1614 1617 64755 3 1600 1615 1617
64756 3 1600 1616 1617 64757 2 1591 1609 64758 2 1591 1610 64759 2 1593 1609 64760 2 1593 1610
64761 2 1594 1609 64762 2 1594 1610 64763 2 1587 1609 64764 2 1587 1610 64765 2 1588 1609 64766
2 1588 1610 64767 2 1581 1609 64768 2 1581 1610 64769 2 1580 1609 64770 2 1580 1610 64771 2 1582
1609 64772 2 1582 1610 64773 2 1589 1609 64774 2 1589 1610 64775 2 1590 1609 64776 2 1590 1610
64777 2 1588 1580 64778 2 1588 1581 64779 2 1588 1582 64780 2 1588 1605 64781 2 1588 1585 64782
2 1587 1585 64783 2 1589 1585 64784 2 1590 1585 64785 2 1591 1609 64786 2 1591 1610 64787 2 1593
1609 64788 2 1593 1610 64789 2 1594 1609 64790 2 1594 1610 64791 2 1587 1609 64792 2 1587 1610
64793 2 1588 1609 64794 2 1588 1610 64795 2 1581 1609 64796 2 1581 1610 64797 2 1580 1609 64798
2 1580 1610 64799 2 1582 1609 64800 2 1582 1610 64801 2 1589 1609 64802 2 1589 1610 64803 2 1590
1609 64804 2 1590 1610 64805 2 1588 1580 64806 2 1588 1581 64807 2 1588 1582 64808 2 1588 1605
64809 2 1588 1585 64810 2 1587 1585 64811 2 1589 1585 64812 2 1590 1585 64813 2 1588 1580 64814
2 1588 1581 64815 2 1588 1582 64816 2 1588 1605 64817 2 1587 1607 64818 2 1588 1607 64819 2 1591
1605 64820 2 1587 1580 64821 2 1587 1581 64822 2 1587 1582 64823 2 1588 1580 64824 2 1588 1581
64825 2 1588 1582 64826 2 1591 1605 64827 2 1592 1605 64828 2 1575 1611 64829 2 1575 1611 64848
3 1578 1580 1605 64849 3 1578 1581 1580 64850 3 1578 1581 1580 64851 3 1578 1581 1605 64852 3
1578 1582 1605 64853 3 1578 1605 1580 64854 3 1578 1605 1581 64855 3 1578 1605 1582 64856 3 1580
1605 1581 64857 3 1580 1605 1581 64858 3 1581 1605 1610 64859 3 1581 1605 1609 64860 3 1587 1581
1580 64861 3 1587 1580 1581 64862 3 1587 1580 1609 64863 3 1587 1605 1581 64864 3 1587 1605 1581
64865 3 1587 1605 1580 64866 3 1587 1605 1605 64867 3 1587 1605 1605 64868 3 1589 1581 1581
64869 3 1589 1581 1581 64870 3 1589 1605 1605 64871 3 1588 1581 1605 64872 3 1588 1581 1605
64873 3 1588 1580 1610 64874 3 1588 1605 1582 64875 3 1588 1605 1582 64876 3 1588 1605 1605
64877 3 1588 1605 1605 64878 3 1590 1581 1609 64879 3 1590 1582 1605 64880 3 1590 1582 1605
64881 3 1591 1605 1581 64882 3 1591 1605 1581 64883 3 1591 1605 1605 64884 3 1591 1605 1610
64885 3 1593 1580 1605 64886 3 1593 1605 1605 64887 3 1593 1605 1605 64888 3 1593 1605 1609
64889 3 1594 1605 1605 64890 3 1594 1605 1610 64891 3 1594 1605 1609 64892 3 1601 1582 1605
64893 3 1601 1582 1605 64894 3 1602 1605 1581 64895 3 1602 1605 1605 64896 3 1604 1581 1605
64897 3 1604 1581 1610 64898 3 1604 1581 1609 64899 3 1604 1580 1580 64900 3 1604 1580 1580
64901 3 1604 1582 1605 64902 3 1604 1582 1605 64903 3 1604 1605 1581 64904 3 1604 1605 1581
64905 3 1605 1581 1580 64906 3 1605 1581 1605 64907 3 1605 1581 1610 64908 3 1605 1580 1581
64909 3 1605 1580 1605 64910 3 1605 1582 1580 64911 3 1605 1582 1605 64914 3 1605 1580 1582
64915 3 1607 1605 1580 64916 3 1607 1605 1605 64917 3 1606 1581 1605 64918 3 1606 1581 1609
64919 3 1606 1580 1605 64920 3 1606 1580 1605 64921 3 1606 1580 1609 64922 3 1606 1605 1610
64923 3 1606 1605 1609 64924 3 1610 1605 1605 64925 3 1610 1605 1605 64926 3 1576 1582 1610
64927 3 1578 1580 1610 64928 3 1578 1580 1609 64929 3 1578 1582 1610 64930 3 1578 1582 1609
64931 3 1578 1605 1610 64932 3 1578 1605 1609 64933 3 1580 1605 1610 64934 3 1580 1581 1609
64935 3 1580 1605 1609 64936 3 1587 1582 1609 64937 3 1589 1581 1610 64938 3 1588 1581 1610
64939 3 1590 1581 1610 64940 3 1604 1580 1610 64941 3 1604 1605 1610 64942 3 1610 1581 1610
64943 3 1610 1580 1610 64944 3 1610 1605 1610 64945 3 1605 1605 1610 64946 3 1602 1605 1610
64947 3 1606 1581 1610 64948 3 1602 1605 1581 64949 3 1604 1581 1605 64950 3 1593 1605 1610
64951 3 1603 1605 1610 64952 3 1606 1580 1581 64953 3 1605 1582 1610 64954 3 1604 1580 1605
64955 3 1603 1605 1605 64956 3 1604 1580 1605 64957 3 1606 1580 1581 64958 3 1580 1581 1610
64959 3 1581 1580 1610 64960 3 1605 1580 1610 64961 3 1601 1605 1610 64962 3 1576 1581 1610
64963 3 1603 1605 1605 64964 3 1593 1580 1605 64965 3 1589 1605 1605 64966 3 1587 1582 1610
64967 3 1606 1580 1610 65008 3 1589 1604 1746 65009 3 1602 1604 1746 65010 4 1575 1604 1604 1607
65011 4 1575 1603 1576 1585 65012 4 1605 1581 1605 1583 65013 4 1589 1604 1593 1605 65014 4 1585
1587 1608 1604 65015 4 1593 1604 1610 1607 65016 4 1608 1587 1604 1605 65017 3 1589 1604 1609
65137 2 1600 1611 65143 2 1600 1614 65145 2 1600 1615 65147 2 1600 1616 65149 2 1600 1617 65151
2 1600 1618 65153 2 1575 1619 65154 2 1575 1619 65155 2 1575 1620 65156 2 1575 1620 65157 2 1608
1620 65158 2 1608 1620 65159 2 1575 1621 65160 2 1575 1621 65161 2 1610 1620 65162 2 1610 1620
65163 2 1610 1620 65164 2 1610 1620 65269 3 1604 1575 1619 65270 3 1604 1575 1619 65271 3 1604
1575 1620 65272 3 1604 1575 1620 65273 3 1604 1575 1621 65274 3 1604 1575 1621 65275 2 1604 1575
65276 2 1604 1575 69786 2 69785 69818 69788 2 69787 69818 69803 2 69797 69818 69934 2 69937
69927 69935 2 69938 69927 70475 2 70471 70462 70476 2 70471 70487 70843 2 70841 70842 70844 2
70841 70832 70846 2 70841 70845 71098 2 71096 71087 71099 2 71097 71087 71992 2 71989 71984"

/-- Triples `first count class`: the combining class of a run of marks. -/
def combiningTable : String :=
"768 21 230 789 1 232 790 4 220 794 1 232 795 1 216 796 5 220 801 2 202 803 4 220 807 2 202 809
11 220 820 5 1 825 4 220 829 8 230 837 1 240 838 1 230 839 3 220 842 3 230 845 2 220 848 3 230
851 4 220 855 1 230 856 1 232 857 2 220 859 1 230 860 1 233 861 2 234 863 1 233 864 2 234 866 1
233 867 13 230 1155 5 230 1425 1 220 1426 4 230 1430 1 220 1431 3 230 1434 1 222 1435 1 220 1436
6 230 1442 6 220 1448 2 230 1450 1 220 1451 2 230 1453 1 222 1454 1 228 1455 1 230 1456 1 10
1457 1 11 1458 1 12 1459 1 13 1460 1 14 1461 1 15 1462 1 16 1463 1 17 1464 1 18 1465 2 19 1467 1
20 1468 1 21 1469 1 22 1471 1 23 1473 1 24 1474 1 25 1476 1 230 1477 1 220 1479 1 18 1552 8 230
1560 1 30 1561 1 31 1562 1 32 1611 1 27 1612 1 28 1613 1 29 1614 1 30 1615 1 31 1616 1 32 1617 1
33 1618 1 34 1619 2 230 1621 2 220 1623 5 230 1628 1 220 1629 2 230 1631 1 220 1648 1 35 1750 7
230 1759 4 230 1763 1 220 1764 1 230 1767 2 230 1770 1 220 1771 2 230 1773 1 220 1809 1 36 1840
1 230 1841 1 220 1842 2 230 1844 1 220 1845 2 230 1847 3 220 1850 1 230 1851 2 220 1853 1 230
1854 1 220 1855 3 230 1858 1 220 1859 1 230 1860 1 220 1861 1 230 1862 1 220 1863 1 230 1864 1
220 1865 2 230 2027 7 230 2034 1 220 2035 1 230 2045 1 220 2070 4 230 2075 9 230 2085 3 230 2089
5 230 2137 3 220 2200 1 230 2201 3 220 2204 4 230 2250 5 230 2255 5 220 2260 14 230 2275 1 220
2276 2 230 2278 1 220 2279 2 230 2281 1 220 2282 3 230 2285 3 220 2288 1 27 2289 1 28 2290 1 29
2291 3 230 2294 1 220 2295 2 230 2297 2 220 2299 5 230 2364 1 7 2381 1 9 2385 1 230 2386 1 220
2387 2 230 2492 1 7 2509 1 9 2558 1 230 2620 1 7 2637 1 9 2748 1 7 2765 1 9 2876 1 7 2893 1 9
3021 1 9 3132 1 7 3149 1 9 3157 1 84 3158 1 91 3260 1 7 3277 1 9 3387 2 9 3405 1 9 3530 1 9 3640
2 103 3642 1 9 3656 4 107 3768 2 118 3770 1 9 3784 4 122 3864 2 220 3893 1 220 3895 1 220 3897 1
216 3953 1 129 3954 1 130 3956 1 132 3962 4 130 3968 1 130 3970 2 230 3972 1 9 3974 2 230 4038 1
220 4151 1 7 4153 2 9 4237 1 220 4957 3 230 5908 2 9 5940 1 9 6098 1 9 6109 1 230 6313 1 228
6457 1 222 6458 1 230 6459 1 220 6679 1 230 6680 1 220 6752 1 9 6773 8 230 6783 1 220 6832 5 230
6837 6 220 6843 2 230 6845 1 220 6847 2 220 6849 2 230 6851 2 220 6853 5 230 6858 1 220 6859 4
230 6964 1 7 6980 1 9 7019 1 230 7020 1 220 7021 7 230 7082 2 9 7142 1 7 7154 2 9 7223 1 7 7376
3 230 7380 1 1 7381 5 220 7386 2 230 7388 4 220 7392 1 230 7394 7 1 7405 1 220 7412 1 230 7416 2
230 7616 2 230 7618 1 220 7619 7 230 7626 1 220 7627 2 230 7629 1 234 7630 1 214 7631 1 220 7632
1 202 7633 37 230 7670 1 232 7671 2 228 7673 1 220 7674 1 218 7675 1 230 7676 1 233 7677 1 220
7678 1 230 7679 1 220 8400 2 230 8402 2 1 8404 4 230 8408 3 1 8411 2 230 8417 1 230 8421 2 1
8423 1 230 8424 1 220 8425 1 230 8426 2 1 8428 4 220 8432 1 230 11503 3 230 11647 1 9 11744 32
230 12330 1 218 12331 1 228 12332 1 232 12333 1 222 12334 2 224 12441 2 8 42607 1 230 42612 10
230 42654 2 230 42736 2 230 43014 1 9 43052 1 9 43204 1 9 43232 18 230 43307 3 220 43347 1 9
43443 1 7 43456 1 9 43696 1 230 43698 2 230 43700 1 220 43703 2 230 43710 2 230 43713 1 230
43766 1 9 44013 1 9 64286 1 26 65056 7 230 65063 7 220 65070 2 230 66045 1 220 66272 1 220 66422
5 230 68109 1 220 68111 1 230 68152 1 230 68153 1 1 68154 1 220 68159 1 9 68325 1 230 68326 1
220 68900 4 230 69291 2 230 69446 2 220 69448 3 230 69451 1 220 69452 1 230 69453 4 220 69506 1
230 69507 1 220 69508 1 230 69509 1 220 69702 1 9 69744 1 9 69759 1 9 69817 1 9 69818 1 7 69888
3 230 69939 2 9 70003 1 7 70080 1 9 70090 1 7 70197 1 9 70198 1 7 70377 1 7 70378 1 9 70459 2 7
70477 1 9 70502 7 230 70512 5 230 70722 1 9 70726 1 7 70750 1 230 70850 1 9 70851 1 7 71103 1 9
71104 1 7 71231 1 9 71350 1 9 71351 1 7 71467 1 9 71737 1 9 71738 1 7 71997 2 9 72003 1 7 72160
1 9 72244 1 9 72263 1 9 72345 1 9 72767 1 9 73026 1 7 73028 2 9 73111 1 9 92912 5 1 92976 7 230
94192 2 6 113822 1 1 119141 2 216 119143 3 1 119149 1 226 119150 5 216 119163 8 220 119173 5 230
119178 2 220 119210 4 230 119362 3 230 122880 7 230 122888 17 230 122907 7 230 122915 2 230
122918 5 230 123184 7 230 123566 1 230 123628 4 230 125136 7 220 125252 6 230 125258 1 7"

/-- Triples `first second whole`: two characters that compose into one. -/
def composingTable : String :=
"65 768 192 65 769 193 65 770 194 65 771 195 65 776 196 65 778 197 67 807 199 69 768 200 69 769
201 69 770 202 69 776 203 73 768 204 73 769 205 73 770 206 73 776 207 78 771 209 79 768 210 79
769 211 79 770 212 79 771 213 79 776 214 85 768 217 85 769 218 85 770 219 85 776 220 89 769 221
97 768 224 97 769 225 97 770 226 97 771 227 97 776 228 97 778 229 99 807 231 101 768 232 101 769
233 101 770 234 101 776 235 105 768 236 105 769 237 105 770 238 105 776 239 110 771 241 111 768
242 111 769 243 111 770 244 111 771 245 111 776 246 117 768 249 117 769 250 117 770 251 117 776
252 121 769 253 121 776 255 65 772 256 97 772 257 65 774 258 97 774 259 65 808 260 97 808 261 67
769 262 99 769 263 67 770 264 99 770 265 67 775 266 99 775 267 67 780 268 99 780 269 68 780 270
100 780 271 69 772 274 101 772 275 69 774 276 101 774 277 69 775 278 101 775 279 69 808 280 101
808 281 69 780 282 101 780 283 71 770 284 103 770 285 71 774 286 103 774 287 71 775 288 103 775
289 71 807 290 103 807 291 72 770 292 104 770 293 73 771 296 105 771 297 73 772 298 105 772 299
73 774 300 105 774 301 73 808 302 105 808 303 73 775 304 74 770 308 106 770 309 75 807 310 107
807 311 76 769 313 108 769 314 76 807 315 108 807 316 76 780 317 108 780 318 78 769 323 110 769
324 78 807 325 110 807 326 78 780 327 110 780 328 79 772 332 111 772 333 79 774 334 111 774 335
79 779 336 111 779 337 82 769 340 114 769 341 82 807 342 114 807 343 82 780 344 114 780 345 83
769 346 115 769 347 83 770 348 115 770 349 83 807 350 115 807 351 83 780 352 115 780 353 84 807
354 116 807 355 84 780 356 116 780 357 85 771 360 117 771 361 85 772 362 117 772 363 85 774 364
117 774 365 85 778 366 117 778 367 85 779 368 117 779 369 85 808 370 117 808 371 87 770 372 119
770 373 89 770 374 121 770 375 89 776 376 90 769 377 122 769 378 90 775 379 122 775 380 90 780
381 122 780 382 79 795 416 111 795 417 85 795 431 117 795 432 65 780 461 97 780 462 73 780 463
105 780 464 79 780 465 111 780 466 85 780 467 117 780 468 220 772 469 252 772 470 220 769 471
252 769 472 220 780 473 252 780 474 220 768 475 252 768 476 196 772 478 228 772 479 550 772 480
551 772 481 198 772 482 230 772 483 71 780 486 103 780 487 75 780 488 107 780 489 79 808 490 111
808 491 490 772 492 491 772 493 439 780 494 658 780 495 106 780 496 71 769 500 103 769 501 78
768 504 110 768 505 197 769 506 229 769 507 198 769 508 230 769 509 216 769 510 248 769 511 65
783 512 97 783 513 65 785 514 97 785 515 69 783 516 101 783 517 69 785 518 101 785 519 73 783
520 105 783 521 73 785 522 105 785 523 79 783 524 111 783 525 79 785 526 111 785 527 82 783 528
114 783 529 82 785 530 114 785 531 85 783 532 117 783 533 85 785 534 117 785 535 83 806 536 115
806 537 84 806 538 116 806 539 72 780 542 104 780 543 65 775 550 97 775 551 69 807 552 101 807
553 214 772 554 246 772 555 213 772 556 245 772 557 79 775 558 111 775 559 558 772 560 559 772
561 89 772 562 121 772 563 913 769 902 917 769 904 919 769 905 921 769 906 927 769 908 933 769
910 937 769 911 970 769 912 921 776 938 933 776 939 945 769 940 949 769 941 951 769 942 953 769
943 971 769 944 953 776 970 965 776 971 959 769 972 965 769 973 969 769 974 978 769 979 978 776
980 1045 768 1024 1045 776 1025 1043 769 1027 1030 776 1031 1050 769 1036 1048 768 1037 1059 774
1038 1048 774 1049 1080 774 1081 1077 768 1104 1077 776 1105 1075 769 1107 1110 776 1111 1082
769 1116 1080 768 1117 1091 774 1118 1140 783 1142 1141 783 1143 1046 774 1217 1078 774 1218
1040 774 1232 1072 774 1233 1040 776 1234 1072 776 1235 1045 774 1238 1077 774 1239 1240 776
1242 1241 776 1243 1046 776 1244 1078 776 1245 1047 776 1246 1079 776 1247 1048 772 1250 1080
772 1251 1048 776 1252 1080 776 1253 1054 776 1254 1086 776 1255 1256 776 1258 1257 776 1259
1069 776 1260 1101 776 1261 1059 772 1262 1091 772 1263 1059 776 1264 1091 776 1265 1059 779
1266 1091 779 1267 1063 776 1268 1095 776 1269 1067 776 1272 1099 776 1273 1575 1619 1570 1575
1620 1571 1608 1620 1572 1575 1621 1573 1610 1620 1574 1749 1620 1728 1729 1620 1730 1746 1620
1747 2344 2364 2345 2352 2364 2353 2355 2364 2356 2503 2494 2507 2503 2519 2508 2887 2902 2888
2887 2878 2891 2887 2903 2892 2962 3031 2964 3014 3006 3018 3015 3006 3019 3014 3031 3020 3142
3158 3144 3263 3285 3264 3270 3285 3271 3270 3286 3272 3270 3266 3274 3274 3285 3275 3398 3390
3402 3399 3390 3403 3398 3415 3404 3545 3530 3546 3545 3535 3548 3548 3530 3549 3545 3551 3550
4133 4142 4134 6917 6965 6918 6919 6965 6920 6921 6965 6922 6923 6965 6924 6925 6965 6926 6929
6965 6930 6970 6965 6971 6972 6965 6973 6974 6965 6976 6975 6965 6977 6978 6965 6979 65 805 7680
97 805 7681 66 775 7682 98 775 7683 66 803 7684 98 803 7685 66 817 7686 98 817 7687 199 769 7688
231 769 7689 68 775 7690 100 775 7691 68 803 7692 100 803 7693 68 817 7694 100 817 7695 68 807
7696 100 807 7697 68 813 7698 100 813 7699 274 768 7700 275 768 7701 274 769 7702 275 769 7703
69 813 7704 101 813 7705 69 816 7706 101 816 7707 552 774 7708 553 774 7709 70 775 7710 102 775
7711 71 772 7712 103 772 7713 72 775 7714 104 775 7715 72 803 7716 104 803 7717 72 776 7718 104
776 7719 72 807 7720 104 807 7721 72 814 7722 104 814 7723 73 816 7724 105 816 7725 207 769 7726
239 769 7727 75 769 7728 107 769 7729 75 803 7730 107 803 7731 75 817 7732 107 817 7733 76 803
7734 108 803 7735 7734 772 7736 7735 772 7737 76 817 7738 108 817 7739 76 813 7740 108 813 7741
77 769 7742 109 769 7743 77 775 7744 109 775 7745 77 803 7746 109 803 7747 78 775 7748 110 775
7749 78 803 7750 110 803 7751 78 817 7752 110 817 7753 78 813 7754 110 813 7755 213 769 7756 245
769 7757 213 776 7758 245 776 7759 332 768 7760 333 768 7761 332 769 7762 333 769 7763 80 769
7764 112 769 7765 80 775 7766 112 775 7767 82 775 7768 114 775 7769 82 803 7770 114 803 7771
7770 772 7772 7771 772 7773 82 817 7774 114 817 7775 83 775 7776 115 775 7777 83 803 7778 115
803 7779 346 775 7780 347 775 7781 352 775 7782 353 775 7783 7778 775 7784 7779 775 7785 84 775
7786 116 775 7787 84 803 7788 116 803 7789 84 817 7790 116 817 7791 84 813 7792 116 813 7793 85
804 7794 117 804 7795 85 816 7796 117 816 7797 85 813 7798 117 813 7799 360 769 7800 361 769
7801 362 776 7802 363 776 7803 86 771 7804 118 771 7805 86 803 7806 118 803 7807 87 768 7808 119
768 7809 87 769 7810 119 769 7811 87 776 7812 119 776 7813 87 775 7814 119 775 7815 87 803 7816
119 803 7817 88 775 7818 120 775 7819 88 776 7820 120 776 7821 89 775 7822 121 775 7823 90 770
7824 122 770 7825 90 803 7826 122 803 7827 90 817 7828 122 817 7829 104 817 7830 116 776 7831
119 778 7832 121 778 7833 383 775 7835 65 803 7840 97 803 7841 65 777 7842 97 777 7843 194 769
7844 226 769 7845 194 768 7846 226 768 7847 194 777 7848 226 777 7849 194 771 7850 226 771 7851
7840 770 7852 7841 770 7853 258 769 7854 259 769 7855 258 768 7856 259 768 7857 258 777 7858 259
777 7859 258 771 7860 259 771 7861 7840 774 7862 7841 774 7863 69 803 7864 101 803 7865 69 777
7866 101 777 7867 69 771 7868 101 771 7869 202 769 7870 234 769 7871 202 768 7872 234 768 7873
202 777 7874 234 777 7875 202 771 7876 234 771 7877 7864 770 7878 7865 770 7879 73 777 7880 105
777 7881 73 803 7882 105 803 7883 79 803 7884 111 803 7885 79 777 7886 111 777 7887 212 769 7888
244 769 7889 212 768 7890 244 768 7891 212 777 7892 244 777 7893 212 771 7894 244 771 7895 7884
770 7896 7885 770 7897 416 769 7898 417 769 7899 416 768 7900 417 768 7901 416 777 7902 417 777
7903 416 771 7904 417 771 7905 416 803 7906 417 803 7907 85 803 7908 117 803 7909 85 777 7910
117 777 7911 431 769 7912 432 769 7913 431 768 7914 432 768 7915 431 777 7916 432 777 7917 431
771 7918 432 771 7919 431 803 7920 432 803 7921 89 768 7922 121 768 7923 89 803 7924 121 803
7925 89 777 7926 121 777 7927 89 771 7928 121 771 7929 945 787 7936 945 788 7937 7936 768 7938
7937 768 7939 7936 769 7940 7937 769 7941 7936 834 7942 7937 834 7943 913 787 7944 913 788 7945
7944 768 7946 7945 768 7947 7944 769 7948 7945 769 7949 7944 834 7950 7945 834 7951 949 787 7952
949 788 7953 7952 768 7954 7953 768 7955 7952 769 7956 7953 769 7957 917 787 7960 917 788 7961
7960 768 7962 7961 768 7963 7960 769 7964 7961 769 7965 951 787 7968 951 788 7969 7968 768 7970
7969 768 7971 7968 769 7972 7969 769 7973 7968 834 7974 7969 834 7975 919 787 7976 919 788 7977
7976 768 7978 7977 768 7979 7976 769 7980 7977 769 7981 7976 834 7982 7977 834 7983 953 787 7984
953 788 7985 7984 768 7986 7985 768 7987 7984 769 7988 7985 769 7989 7984 834 7990 7985 834 7991
921 787 7992 921 788 7993 7992 768 7994 7993 768 7995 7992 769 7996 7993 769 7997 7992 834 7998
7993 834 7999 959 787 8000 959 788 8001 8000 768 8002 8001 768 8003 8000 769 8004 8001 769 8005
927 787 8008 927 788 8009 8008 768 8010 8009 768 8011 8008 769 8012 8009 769 8013 965 787 8016
965 788 8017 8016 768 8018 8017 768 8019 8016 769 8020 8017 769 8021 8016 834 8022 8017 834 8023
933 788 8025 8025 768 8027 8025 769 8029 8025 834 8031 969 787 8032 969 788 8033 8032 768 8034
8033 768 8035 8032 769 8036 8033 769 8037 8032 834 8038 8033 834 8039 937 787 8040 937 788 8041
8040 768 8042 8041 768 8043 8040 769 8044 8041 769 8045 8040 834 8046 8041 834 8047 945 768 8048
949 768 8050 951 768 8052 953 768 8054 959 768 8056 965 768 8058 969 768 8060 7936 837 8064 7937
837 8065 7938 837 8066 7939 837 8067 7940 837 8068 7941 837 8069 7942 837 8070 7943 837 8071
7944 837 8072 7945 837 8073 7946 837 8074 7947 837 8075 7948 837 8076 7949 837 8077 7950 837
8078 7951 837 8079 7968 837 8080 7969 837 8081 7970 837 8082 7971 837 8083 7972 837 8084 7973
837 8085 7974 837 8086 7975 837 8087 7976 837 8088 7977 837 8089 7978 837 8090 7979 837 8091
7980 837 8092 7981 837 8093 7982 837 8094 7983 837 8095 8032 837 8096 8033 837 8097 8034 837
8098 8035 837 8099 8036 837 8100 8037 837 8101 8038 837 8102 8039 837 8103 8040 837 8104 8041
837 8105 8042 837 8106 8043 837 8107 8044 837 8108 8045 837 8109 8046 837 8110 8047 837 8111 945
774 8112 945 772 8113 8048 837 8114 945 837 8115 940 837 8116 945 834 8118 8118 837 8119 913 774
8120 913 772 8121 913 768 8122 913 837 8124 8052 837 8130 951 837 8131 942 837 8132 951 834 8134
8134 837 8135 917 768 8136 919 768 8138 919 837 8140 953 774 8144 953 772 8145 970 768 8146 953
834 8150 970 834 8151 921 774 8152 921 772 8153 921 768 8154 965 774 8160 965 772 8161 971 768
8162 961 787 8164 961 788 8165 965 834 8166 971 834 8167 933 774 8168 933 772 8169 933 768 8170
929 788 8172 8060 837 8178 969 837 8179 974 837 8180 969 834 8182 8182 837 8183 927 768 8184 937
768 8186 937 837 8188 61 824 8800 60 824 8814 62 824 8815 12363 12441 12364 12365 12441 12366
12367 12441 12368 12369 12441 12370 12371 12441 12372 12373 12441 12374 12375 12441 12376 12377
12441 12378 12379 12441 12380 12381 12441 12382 12383 12441 12384 12385 12441 12386 12388 12441
12389 12390 12441 12391 12392 12441 12393 12399 12441 12400 12399 12442 12401 12402 12441 12403
12402 12442 12404 12405 12441 12406 12405 12442 12407 12408 12441 12409 12408 12442 12410 12411
12441 12412 12411 12442 12413 12358 12441 12436 12445 12441 12446 12459 12441 12460 12461 12441
12462 12463 12441 12464 12465 12441 12466 12467 12441 12468 12469 12441 12470 12471 12441 12472
12473 12441 12474 12475 12441 12476 12477 12441 12478 12479 12441 12480 12481 12441 12482 12484
12441 12485 12486 12441 12487 12488 12441 12489 12495 12441 12496 12495 12442 12497 12498 12441
12499 12498 12442 12500 12501 12441 12502 12501 12442 12503 12504 12441 12505 12504 12442 12506
12507 12441 12508 12507 12442 12509 12454 12441 12532 12527 12441 12535 12528 12441 12536 12529
12441 12537 12530 12441 12538 12541 12441 12542 69785 69818 69786 69787 69818 69788 69797 69818
69803 69937 69927 69934 69938 69927 69935 70471 70462 70475 70471 70487 70476 70841 70842 70843
70841 70832 70844 70841 70845 70846 71096 71087 71098 71097 71087 71099 71989 71984 71992"

end TableAudit.Text.Compatibility
